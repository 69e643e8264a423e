import DbnPipe.Library.Runs
import DbnPipe.Stream.ZstdReceived

/-!
# The bytes of ZstdDecompressor

Where the compressed bytes are and where the decompressed ones, over a whole run.

* `Held` — the invariant of every moment, with the bytes that the decoder has not been shown yet;
* `chunkLoop_spec`, `chainLoop_spec` — **the two loops**: all of the chain is fed, or what is left of it is
  owed, and the component is suspended or closed;
* `Idle`, `Waits`, `Answers` — between two calls nothing is owed unless suspended, a deferred `OnDone` waits for a
  `Resume`, and an `OnDone` was answered or is deferred;
* `decoder_fed_once` — the theorem, for every run and every downstream that does not call `Resume` itself.
-/

namespace DbnPipe.Zstd

variable {Z : ZstdDecoder} {δ : Type}

/-! ### The invariant -/

/-- All input was decoded, the last frame is complete, and its output was consumed. -/
structure Finished (h : ZstdDecompressor Z δ) : Prop where
  input : h.fed = h.received
  result : h.lastDecompressResult = 0
  output : h.consumed = h.decoded
  empty : Chain.bytes h.outputChain = []

/-- What closing does not touch. -/
structure Sane (c : Component (ZstdDecompressor Z δ)) : Prop where
  wfOutput : Chain.WF c.own.outputChain
  wfPending : Chain.WF c.own.pendingInput
  wfInput : Chain.WF c.own.input
  calls : ∀ s ∈ c.own.calls, s = false
  closed : c.closed = c.finalized
  scheduled : c.closePending = true ∨ c.closeScheduled = true → c.closed = true
  signals : c.signals.length = if c.finalized then 1 else 0
  done : .done ∈ c.signals → Finished c.own

/-- Where the bytes of an open component are; `rest` are those that the decoder has not taken. -/
structure Accounted (rest : List Byte) (h : ZstdDecompressor Z δ) : Prop where
  input : h.fed ++ rest = h.received
  output : h.consumed ++ Chain.bytes h.outputChain = h.decoded
  alive : h.dstream.isSome = true

/-- What holds at every moment. -/
structure Held (rest : List Byte) (c : Component (ZstdDecompressor Z δ)) : Prop extends Sane c where
  accounted : c.closed = false → Accounted rest c.own

/-- A deferred `OnDone` waits for a `Resume`. -/
def Waits (c : Component (ZstdDecompressor Z δ)) : Prop := c.donePending = true → c.suspended = true

/-- An `OnDone` was answered or is deferred. -/
def Answers (c : Component (ZstdDecompressor Z δ)) : Prop := c.finalized = true ∨ c.donePending = true

/-- Between two calls nothing is owed unless suspended. -/
structure Idle (c : Component (ZstdDecompressor Z δ)) : Prop extends Held (Chain.bytes c.own.pendingInput) c where
  drained : c.closed = false → c.suspended = false → Chain.bytes c.own.pendingInput = []

/-- What decompressing leaves alone. -/
structure Apart (c d : Component (ZstdDecompressor Z δ)) : Prop where
  donePending : d.donePending = c.donePending
  suspendCount : c.suspendCount ≤ d.suspendCount
  finalized : c.finalized = true → d.finalized = true

variable {c d : Component (ZstdDecompressor Z δ)} {rest : List Byte}

theorem Apart.refl (c : Component (ZstdDecompressor Z δ)) : Apart c c := ⟨rfl, Nat.le_refl _, id⟩

theorem Apart.trans {e : Component (ZstdDecompressor Z δ)} (h : Apart c d) (h' : Apart d e) : Apart c e :=
  ⟨h'.donePending.trans h.donePending, Nat.le_trans h.suspendCount h'.suspendCount,
    fun hf => h'.finalized (h.finalized hf)⟩

theorem apart_update (f : ZstdDecompressor Z δ → ZstdDecompressor Z δ) (c : Component (ZstdDecompressor Z δ)) :
    Apart c (update f c) := ⟨rfl, Nat.le_refl _, id⟩

theorem apart_enter (c : Component (ZstdDecompressor Z δ)) : Apart c c.enter := ⟨rfl, Nat.le_refl _, id⟩

theorem Apart.suspended (h : Apart c d) (hs : c.suspended = true) : d.suspended = true := by
  rw [Component.suspended_iff] at hs ⊢
  exact Nat.lt_of_lt_of_le hs h.suspendCount

theorem Apart.waits (h : Apart c d) (hw : Waits c) : Waits d := fun hd =>
  h.suspended (hw (h.donePending.symm.trans hd))

theorem Apart.answers (h : Apart c d) (ha : Answers c) : Answers d := by
  rw [Answers, h.donePending]
  exact ha.imp_left h.finalized

/-- The bytes of a closed component no longer matter. -/
theorem held_of_closed (h : Sane c) (hc : c.closed = true) : Held rest c :=
  ⟨h, fun ho => absurd (hc.symm.trans ho) (by simp)⟩

theorem Sane.noSignal (h : Sane c) (hc : c.closed = false) : c.signals = [] := by
  have hs := h.signals
  rw [← h.closed, hc] at hs
  exact List.length_eq_zero_iff.mp hs

theorem Sane.noDone (h : Sane c) (hc : c.closed = false) : Signal.done ∉ c.signals := by
  rw [h.noSignal hc]
  exact List.not_mem_nil

/-- Flags other than the closing ones do not matter. -/
theorem held_flags (h : Held rest c) (hown : d.own = c.own) (hclosed : d.closed = c.closed)
    (hfinalized : d.finalized = c.finalized) (hsignals : d.signals = c.signals)
    (hscheduled : d.closePending = true ∨ d.closeScheduled = true →
      c.closePending = true ∨ c.closeScheduled = true) : Held rest d := by
  refine ⟨⟨?_, ?_, ?_, ?_, ?_, ?_, ?_, ?_⟩, ?_⟩
  · rw [hown]; exact h.wfOutput
  · rw [hown]; exact h.wfPending
  · rw [hown]; exact h.wfInput
  · rw [hown]; exact h.calls
  · rw [hclosed, hfinalized]; exact h.closed
  · rw [hclosed]
    exact fun hs => h.scheduled (hscheduled hs)
  · rw [hsignals, hfinalized]; exact h.signals
  · rw [hown, hsignals]; exact h.done
  · rw [hown, hclosed]; exact h.accounted

theorem held_enter (h : Held rest c) : Held rest c.enter := held_flags h rfl rfl rfl rfl id

theorem held_leave (h : Held rest c) : Held rest c.leave :=
  held_flags h c.leave_own c.leave_closed c.leave_finalized c.leave_signals Component.leave_scheduled

theorem held_count (n : ℕ) (h : Held rest c) : Held rest { c with suspendCount := n } :=
  held_flags h rfl rfl rfl rfl id

theorem apart_leave (c : Component (ZstdDecompressor Z δ)) : Apart c c.leave := by
  refine ⟨c.leave_donePending, ?_, ?_⟩
  · rewrite [Component.leave_suspendCount]
    exact Nat.le_refl _
  · rw [Component.leave_finalized]
    exact id

/-! ### Ending -/

section Fail

variable (code : ErrorCode) (message : String)

theorem fail_own (c : Component (ZstdDecompressor Z δ)) : (fail code message c).own = c.own := (c.failed _).own

theorem fail_closed (c : Component (ZstdDecompressor Z δ)) : (fail code message c).closed = true :=
  (c.failed _).closed

theorem apart_fail (c : Component (ZstdDecompressor Z δ)) : Apart c (fail code message c) :=
  ⟨(c.failed _).donePending, Nat.le_of_eq (c.failed _).suspendCount.symm, fun _ => (c.failed _).finalized⟩

theorem sane_fail (h : Sane c) : Sane (fail code message c) := by
  cases hc : c.closed with
  | true =>
    rw [fail, Component.error_of_closed hc (h.closed.symm.trans hc)]
    exact h
  | false =>
    have he := Component.ended_error hc (h.closed.symm.trans hc) { code, message }
    refine ⟨?_, ?_, ?_, ?_, ?_, fun _ => he.closed, ?_, ?_⟩
    · rw [fail, he.own]; exact h.wfOutput
    · rw [fail, he.own]; exact h.wfPending
    · rw [fail, he.own]; exact h.wfInput
    · rw [fail, he.own]; exact h.calls
    · rw [fail, he.closed, he.finalized]
    · rw [fail, he.signals, he.finalized, h.noSignal hc]
      rfl
    · rw [fail, he.signals, h.noSignal hc]
      exact fun hd => absurd hd (by simp)

/-- After an error the bytes no longer matter. -/
theorem held_fail (h : Sane c) : Held rest (fail code message c) :=
  held_of_closed (sane_fail code message h) (fail_closed code message c)

end Fail

/-- `OnDone` goes to the downstream when all is finished. -/
theorem held_done (h : Sane c) (hfin : c.closed = false → Finished c.own) :
    Held rest c.emitDone.requestClose := by
  cases hc : c.closed with
  | true =>
    rw [Component.done_of_closed hc (h.closed.symm.trans hc)]
    exact held_of_closed h hc
  | false =>
    have he := Component.ended_done hc (h.closed.symm.trans hc)
    refine held_of_closed ⟨?_, ?_, ?_, ?_, ?_, fun _ => he.closed, ?_, ?_⟩ he.closed
    · rw [he.own]; exact h.wfOutput
    · rw [he.own]; exact h.wfPending
    · rw [he.own]; exact h.wfInput
    · rw [he.own]; exact h.calls
    · rw [he.closed, he.finalized]
    · rw [he.signals, he.finalized, h.noSignal hc]
      rfl
    · rw [he.own]
      exact fun _ => hfin hc

theorem idle_of_closed (h : Sane c) (hc : c.closed = true) : Idle c :=
  ⟨held_of_closed h hc, fun ho => absurd (hc.symm.trans ho) (by simp)⟩

/-! ### The downstream -/

/-- `Suspend` changes the counts only. -/
theorem suspendTimes_eq (n : ℕ) (c : Component (ZstdDecompressor Z δ)) :
    ∃ upstream, suspendTimes n c =
      { c with suspendCount := c.suspendCount + n, upstreamSuspends := upstream } := by
  induction n generalizing c with
  | zero => exact ⟨c.upstreamSuspends, rfl⟩
  | succ n ih =>
    obtain ⟨upstream, h⟩ := ih c.suspend
    have hadd : c.suspendCount + 1 + n = c.suspendCount + (n + 1) := by omega
    refine ⟨upstream, ?_⟩
    rw [suspendTimes, h, Component.suspend]
    split <;> simp only [hadd]

/-- What the downstream leaves alone. -/
structure Answered (c d : Component (ZstdDecompressor Z δ)) : Prop extends Apart c d where
  closed : d.closed = c.closed
  pendingInput : d.own.pendingInput = c.own.pendingInput
  input : d.own.input = c.own.input
  dstream : d.own.dstream = c.own.dstream
  result : d.own.lastDecompressResult = c.own.lastDecompressResult

/-- **The downstream moves bytes from the output to what it consumed**, and may suspend. -/
theorem answer_spec (D : Downstream Z δ) (h : Held rest c) : Held rest (answer D c) ∧ Answered c (answer D c) := by
  obtain ⟨upstream, heq⟩ := suspendTimes_eq (D c).suspends
    (consume (D c).consume (update (fun h => { h with next := (D c).state }) c))
  have hdrop : Chain.bytes (c.own.outputChain.consume id (min (D c).consume c.own.outputChain.size)) =
      (Chain.bytes c.own.outputChain).drop (D c).consume := Chain.bytes_consumed_min h.wfOutput _
  rw [answer]
  simp only [heq]
  refine ⟨⟨⟨Chain.wf_consumed h.wfOutput _, h.wfPending, h.wfInput, h.calls, h.closed, h.scheduled, h.signals,
    fun hd => ?_⟩, fun hc => ?_⟩, ⟨⟨rfl, Nat.le_add_right _ _, id⟩, rfl, rfl, rfl, rfl, rfl⟩⟩
  · obtain ⟨h1, h2, h3, h4⟩ := h.done hd
    refine ⟨h1, h2, ?_, ?_⟩
    · simp only [consume, update, h4, List.take_nil, List.append_nil]
      exact h3
    · simp only [consume, update, hdrop, h4, List.drop_nil]
  · obtain ⟨h1, h2, h3⟩ := h.accounted hc
    refine ⟨h1, ?_, h3⟩
    simp only [consume, update, hdrop]
    rw [List.append_assoc, List.take_append_drop]
    exact h2

/-! ### One call of the decoder -/

theorem held_recordCall (h : Held rest c) (hs : c.suspended = false) : Held rest (recordCall c) := by
  refine ⟨⟨h.wfOutput, h.wfPending, h.wfInput, fun s hm => ?_, h.closed, h.scheduled, h.signals,
    fun hd => ⟨(h.done hd).input, (h.done hd).result, (h.done hd).output, (h.done hd).empty⟩⟩,
    fun hc => ⟨(h.accounted hc).input, (h.accounted hc).output, (h.accounted hc).alive⟩⟩
  rcases List.mem_append.mp hm with hm | hm
  · exact h.calls s hm
  · exact (List.mem_singleton.mp hm).trans hs

section Absorb

variable {input more : List Byte} {cap : ℕ}

theorem sane_absorb (t : Decoded Z.State input cap) (h : Sane c) (hc : c.closed = false) : Sane (absorb t c) :=
  ⟨h.wfOutput, h.wfPending, h.wfInput, h.calls, h.closed, h.scheduled, h.signals,
    fun hd => absurd hd (h.noDone hc)⟩

/-- The bytes that the decoder took are fed. -/
theorem fed_absorb (t : Decoded Z.State input cap) {h : ZstdDecompressor Z δ}
    (ha : h.fed ++ (input ++ more) = h.received) :
    h.fed ++ input.take t.consumed ++ (input.drop t.consumed ++ more) = h.received := by
  rw [List.append_assoc, ← List.append_assoc (input.take t.consumed), List.take_append_drop]
  exact ha

/-- A call without output. -/
theorem held_absorb (t : Decoded Z.State input cap) (h : Held (input ++ more) c) (hc : c.closed = false)
    (hnone : t.produced.length = 0) : Held (input.drop t.consumed ++ more) (absorb t c) := by
  obtain ⟨h1, h2, -⟩ := h.accounted hc
  refine ⟨sane_absorb t h.toSane hc, fun _ => ⟨fed_absorb t h1, ?_, rfl⟩⟩
  simp only [absorb, update, List.length_eq_zero_iff.mp hnone, List.append_nil]
  exact h2

/-- A call with output, which goes to the chain. -/
theorem held_appendOutput (t : Decoded Z.State input Segment.kSize) (h : Held (input ++ more) c)
    (hc : c.closed = false) : Held (input.drop t.consumed ++ more) (appendOutput t (absorb t c)) := by
  have hs := sane_absorb t h.toSane hc
  have hbytes := Chain.bytes_appended h.wfOutput (Segment.blank.fill t.produced t.produced_le)
  obtain ⟨h1, h2, -⟩ := h.accounted hc
  refine ⟨⟨Chain.wf_appended h.wfOutput _, hs.wfPending, hs.wfInput, hs.calls, hs.closed, hs.scheduled,
    hs.signals, fun hd => absurd hd (h.noDone hc)⟩, fun _ => ⟨fed_absorb t h1, ?_, rfl⟩⟩
  simp only [appendOutput, absorb, update, hbytes, ← h2, List.append_assoc]
  rfl

end Absorb

/-! ### The loops -/

/-- How a loop ends: `tail` is what it was not given, `owed` what it leaves. -/
def Ends (tail owed : List Byte) (d : Component (ZstdDecompressor Z δ)) : DecompressResult → Prop
  | .complete => Held tail d ∧ d.closed = false ∧ d.suspended = false
  | .suspended => Held owed d ∧ d.closed = false ∧ d.suspended = true
  | .error => Held [] d ∧ d.closed = true

/-- What the loop over a chunk leaves alone. -/
structure Kept (c d : Component (ZstdDecompressor Z δ)) : Prop extends Apart c d where
  pendingInput : d.own.pendingInput = c.own.pendingInput
  input : d.own.input = c.own.input

theorem Kept.refl (c : Component (ZstdDecompressor Z δ)) : Kept c c := ⟨.refl c, rfl, rfl⟩

theorem Kept.trans {e : Component (ZstdDecompressor Z δ)} (h : Kept c d) (h' : Kept d e) : Kept c e :=
  ⟨h.toApart.trans h'.toApart, h'.pendingInput.trans h.pendingInput, h'.input.trans h.input⟩

theorem kept_fail (code : ErrorCode) (message : String) (c : Component (ZstdDecompressor Z δ)) :
    Kept c (fail code message c) :=
  ⟨apart_fail code message c, by rw [fail_own], by rw [fail_own]⟩

/-- **The loop over a chunk.** -/
theorem chunkLoop_spec (D : Downstream Z δ) (chunk tail : List Byte) {fuel pos : ℕ} {s : Z.State}
    (hs : c.own.dstream = some s) (hfuel : Z.rounds s (chunk.drop pos) < fuel)
    (h : Held (chunk.drop pos ++ tail) c) (hpos : pos ≤ chunk.length) (hc : c.closed = false)
    (hsus : c.suspended = false) :
    Ends tail (chunk.drop (chunkLoop (answer D) chunk fuel pos c).2.1 ++ tail)
      (chunkLoop (answer D) chunk fuel pos c).1 (chunkLoop (answer D) chunk fuel pos c).2.2 ∧
      Kept c (chunkLoop (answer D) chunk fuel pos c).1 ∧
      (chunkLoop (answer D) chunk fuel pos c).2.1 ≤ chunk.length := by
  induction fuel generalizing pos c s with
  | zero => omega
  | succ fuel ih =>
    rw [chunkLoop]
    by_cases hend : chunk.length ≤ pos
    · rw [if_pos hend]
      rw [List.drop_of_length_le hend, List.nil_append] at h
      exact ⟨⟨h, hc, hsus⟩, .refl c, hpos⟩
    have hne : chunk.drop pos ≠ [] := by
      rw [ne_eq, List.drop_eq_nil_iff]
      exact hend
    have hcall := held_recordCall h hsus
    have hkept : Kept c (recordCall c) := ⟨⟨rfl, Nat.le_refl _, id⟩, rfl, rfl⟩
    rw [if_neg hend, hs]
    simp only
    cases hz : Z.decompressStream s (chunk.drop pos) Segment.kSize with
    | error name => exact ⟨⟨held_fail _ _ hcall.toSane, fail_closed _ _ _⟩, hkept.trans (kept_fail _ _ _), hpos⟩
    | ok t =>
      have hlen := t.consumed_le
      rw [List.length_drop] at hlen
      have hpos' : pos + t.consumed ≤ chunk.length := by omega
      have hprogress := Z.progress hz hne (by decide)
      rw [List.drop_drop] at hprogress
      have habsorb : Kept c (absorb t (recordCall c)) := ⟨⟨rfl, Nat.le_refl _, id⟩, rfl, rfl⟩
      simp only
      by_cases hnone : t.produced.length = 0
      · have hnext := held_absorb t hcall hc hnone
        rw [List.drop_drop] at hnext
        obtain ⟨he, hk, hp⟩ := ih (c := absorb t (recordCall c)) rfl (by omega) hnext hpos' hc hsus
        rw [if_pos hnone]
        exact ⟨he, habsorb.trans hk, hp⟩
      rw [if_neg hnone]
      split
      · exact ⟨⟨held_fail _ _ (sane_absorb t hcall.toSane hc), fail_closed _ _ _⟩,
          habsorb.trans (kept_fail _ _ _), hpos'⟩
      · have happend := held_appendOutput t hcall hc
        rw [List.drop_drop] at happend
        have hfull : (appendOutput t (absorb t (recordCall c))).own.outputChain.empty = false := by
          rw [Chain.not_empty_iff happend.wfOutput]
          simp only [appendOutput, absorb, recordCall, update, Chain.bytes_appended h.wfOutput]
          intro hnil
          exact hnone (List.length_eq_zero_iff.mpr (List.append_eq_nil_iff.mp hnil).2)
        obtain ⟨hheld, hans⟩ := answer_spec D happend
        have hout : Kept c (appendOutput t (absorb t (recordCall c))) := ⟨⟨rfl, Nat.le_refl _, id⟩, rfl, rfl⟩
        have hk : Kept c (answer D (appendOutput t (absorb t (recordCall c)))) :=
          hout.trans ⟨hans.toApart, hans.pendingInput, hans.input⟩
        have hopen := hans.closed.trans hc
        simp only [Component.forwardData, hfull, Bool.false_eq_true, if_false]
        generalize answer D (appendOutput t (absorb t (recordCall c))) = d at hheld hans hk hopen
        cases hd : d.suspended with
        | true =>
          rw [if_pos rfl]
          exact ⟨⟨hheld, hopen, hd⟩, hk, hpos'⟩
        | false =>
          obtain ⟨he, hk', hp⟩ := ih (c := d) hans.dstream (by omega) hheld hpos' hopen hd
          rw [if_neg Bool.false_ne_true]
          exact ⟨he, hk.trans hk', hp⟩

/-- The chain that is not the source. -/
def Source.other : Source → ZstdDecompressor Z δ → Chain
  | .input, h => h.pendingInput
  | .pending, h => h.input

section Source

variable (src : Source) (chain : Chain) (h : ZstdDecompressor Z δ)

@[simp] theorem Source.get_put : src.get (src.put chain h) = chain := by cases src <;> rfl

@[simp] theorem Source.other_put : src.other (src.put chain h) = src.other h := by cases src <;> rfl

end Source

theorem Kept.get (h : Kept c d) (src : Source) : src.get d.own = src.get c.own := by
  cases src with
  | input => exact h.input
  | pending => exact h.pendingInput

theorem Kept.other (h : Kept c d) (src : Source) : src.other d.own = src.other c.own := by
  cases src with
  | input => exact h.pendingInput
  | pending => exact h.input

theorem Sane.wfSource (h : Sane c) (src : Source) : Chain.WF (src.get c.own) := by
  cases src with
  | input => exact h.wfInput
  | pending => exact h.wfPending

theorem apart_consumeSource (src : Source) (n : ℕ) (c : Component (ZstdDecompressor Z δ)) :
    Apart c (consumeSource src n c) := ⟨rfl, Nat.le_refl _, id⟩

/-- What is consumed has been fed. -/
theorem held_consumeSource (src : Source) (n : ℕ) (h : Held rest c) : Held rest (consumeSource src n c) := by
  have hwf := Chain.wf_consumed (h.wfSource src) n
  cases src with
  | input =>
    exact ⟨⟨h.wfOutput, h.wfPending, hwf, h.calls, h.closed, h.scheduled, h.signals,
      fun hd => ⟨(h.done hd).input, (h.done hd).result, (h.done hd).output, (h.done hd).empty⟩⟩,
      fun hc => ⟨(h.accounted hc).input, (h.accounted hc).output, (h.accounted hc).alive⟩⟩
  | pending =>
    exact ⟨⟨h.wfOutput, hwf, h.wfInput, h.calls, h.closed, h.scheduled, h.signals,
      fun hd => ⟨(h.done hd).input, (h.done hd).result, (h.done hd).output, (h.done hd).empty⟩⟩,
      fun hc => ⟨(h.accounted hc).input, (h.accounted hc).output, (h.accounted hc).alive⟩⟩

/-- How decompressing a chain ends. -/
structure Decompressed (src : Source) (c : Component (ZstdDecompressor Z δ))
    (r : Component (ZstdDecompressor Z δ) × DecompressResult) : Prop extends Apart c r.1 where
  ends : Ends [] (Chain.bytes (src.get r.1.own)) r.1 r.2
  complete : r.2 = .complete → Chain.bytes (src.get r.1.own) = []
  other : src.other r.1.own = src.other c.own

/-- **The loop over a chain.** -/
theorem chainLoop_spec (D : Downstream Z δ) (src : Source) {fuel : ℕ} (hfuel : (src.get c.own).size ≤ fuel)
    (h : Held (Chain.bytes (src.get c.own)) c) (hc : c.closed = false) (hsus : c.suspended = false) :
    Decompressed src c (chainLoop (answer D) src fuel c) := by
  induction fuel generalizing c with
  | zero =>
    have hnil : Chain.bytes (src.get c.own) = [] := by
      rw [Chain.size_eq (h.wfSource src)] at hfuel
      exact List.length_eq_zero_iff.mp (by omega)
    rw [hnil] at h
    exact ⟨.refl c, ⟨h, hc, hsus⟩, fun _ => hnil, rfl⟩
  | succ fuel ih =>
    rw [chainLoop]
    cases he : (src.get c.own).empty with
    | true =>
      have hnil := (Chain.empty_iff (h.wfSource src)).mp he
      rw [hnil] at h
      exact ⟨.refl c, ⟨h, hc, hsus⟩, fun _ => hnil, rfl⟩
    | false =>
      obtain ⟨s, hdata, hsize, hpos, hbytes⟩ := Chain.front (h.wfSource src) he
      obtain ⟨state, hstate⟩ := Option.isSome_iff_exists.mp (h.accounted hc).alive
      have hchunk : (s.bytes.drop (src.get c.own).consumedOffset).take ((src.get c.own).contiguousSize id) =
          s.bytes.drop (src.get c.own).consumedOffset := by
        rw [hsize, List.take_length]
      simp only [Bool.false_eq_true, if_false, hdata, hchunk]
      generalize s.bytes.drop (src.get c.own).consumedOffset = chunk at hsize hpos hbytes
      have hfuel' : Z.rounds state (chunk.drop 0) < chunkFuel c.own chunk := by
        rw [chunkFuel, hstate, List.drop_zero]
        exact Nat.lt_succ_self _
      have hheld : Held (chunk.drop 0 ++ Chain.bytes ((src.get c.own).consume id chunk.length)) c := by
        rw [List.drop_zero, ← hsize, ← hbytes]
        exact h
      obtain ⟨hends, hkept, hle⟩ := chunkLoop_spec D chunk _ hstate hfuel' hheld (Nat.zero_le _) hc hsus
      generalize chunkLoop (answer D) chunk (chunkFuel c.own chunk) 0 c = r at hends hkept hle
      obtain ⟨d, pos, outcome⟩ := r
      have hget : ∀ n, src.get (consumeSource src n d).own = (src.get c.own).consume id n := fun n => by
        rw [consumeSource, update, Source.get_put, hkept.get]
      have hother : ∀ n, src.other (consumeSource src n d).own = src.other c.own := fun n => by
        rw [consumeSource, update, Source.other_put, hkept.other]
      cases outcome with
      | complete =>
        obtain ⟨hd, hopen, hsus'⟩ := hends
        have hnext : Held (Chain.bytes (src.get (consumeSource src chunk.length d).own))
            (consumeSource src chunk.length d) := by
          rw [hget]
          exact held_consumeSource src _ hd
        have hsmaller : (src.get (consumeSource src chunk.length d).own).size ≤ fuel := by
          rw [Chain.size_eq (hnext.wfSource src), hget]
          rw [Chain.size_eq (h.wfSource src), hbytes, List.length_append, hsize] at hfuel
          omega
        have hrec := ih hsmaller hnext hopen hsus'
        simp only
        rw [hsize]
        exact ⟨(hkept.toApart.trans (apart_consumeSource src _ d)).trans hrec.toApart, hrec.ends, hrec.complete,
          hrec.other.trans (hother _)⟩
      | suspended =>
        obtain ⟨hd, hopen, hsus'⟩ := hends
        have howed : Chain.bytes ((src.get c.own).consume id pos) =
            chunk.drop pos ++ Chain.bytes ((src.get c.own).consume id chunk.length) := by
          rw [hsize] at hbytes
          exact Chain.bytes_consumed_within (h.wfSource src) hbytes hle
        refine ⟨hkept.toApart.trans (apart_consumeSource src _ d), ⟨?_, hopen, hsus'⟩,
          fun hf => absurd hf (by simp), hother _⟩
        simp only
        rw [hget, howed]
        exact held_consumeSource src pos hd
      | error =>
        exact ⟨hkept.toApart, hends, fun hf => absurd hf (by simp), hkept.other src⟩

/-- **`DecompressChain`** of an open component. -/
theorem decompressChain_spec (D : Downstream Z δ) (src : Source) (h : Held (Chain.bytes (src.get c.own)) c)
    (hc : c.closed = false) : Decompressed src c (decompressChain (answer D) src c) := by
  obtain ⟨state, hstate⟩ := Option.isSome_iff_exists.mp (h.accounted hc).alive
  rw [decompressChain, hstate]
  simp only [Option.isNone_some, Bool.false_eq_true, if_false]
  cases hs : c.suspended with
  | true =>
    rw [if_pos rfl]
    exact ⟨.refl c, ⟨h, hc, hs⟩, fun hf => absurd hf (by simp), rfl⟩
  | false =>
    rw [if_neg Bool.false_ne_true]
    exact chainLoop_spec D src (Nat.le_refl _) h hc hs

/-! ### OnData -/

theorem Decompressed.idle {r : Component (ZstdDecompressor Z δ) × DecompressResult}
    (h : Decompressed .pending c r) : Idle r.1 := by
  obtain ⟨d, outcome⟩ := r
  have hends := h.ends
  cases outcome with
  | complete =>
    have hnil : Chain.bytes d.own.pendingInput = [] := h.complete rfl
    refine ⟨?_, fun _ _ => hnil⟩
    rw [hnil]
    exact hends.1
  | suspended => exact ⟨hends.1, fun _ hs => absurd (hends.2.2.symm.trans hs) (by simp)⟩
  | error => exact idle_of_closed hends.1.toSane hends.2

/-- Some bytes of the caller's chain go to the pending input. -/
def moveInput (n : ℕ) (seg : Segment) (c : Component (ZstdDecompressor Z δ)) : Component (ZstdDecompressor Z δ) :=
  consumeSource .input n
    (update (fun h => { h with pendingInput := BufferChain.append id h.pendingInput seg }) c)

/-- Moving bytes keeps them in order. -/
theorem bytes_moveInput {n : ℕ} {seg : Segment} (hpending : Chain.WF c.own.pendingInput)
    (hinput : Chain.WF c.own.input) (hseg : seg.bytes = (Chain.bytes c.own.input).take n) :
    Chain.bytes (moveInput n seg c).own.pendingInput ++ Chain.bytes (moveInput n seg c).own.input =
      Chain.bytes c.own.pendingInput ++ Chain.bytes c.own.input := by
  show Chain.bytes (BufferChain.append id c.own.pendingInput seg) ++ Chain.bytes (c.own.input.consume id n) = _
  rw [Chain.bytes_appended hpending, Chain.bytes_consumed hinput, hseg, List.append_assoc, List.take_append_drop]

/-- **The rule of `CopyToPendingInput`**: what each move preserves holds as the caller's chain is empty, or as the
limit is reported. -/
theorem copyToPendingInput_preserves {P Q : Component (ZstdDecompressor Z δ) → Prop}
    (hwf : ∀ {c}, P c → Chain.WF c.own.input)
    (hempty : ∀ {c}, P c → Chain.bytes c.own.input = [] → Q c)
    (hfail : ∀ {c}, P c → Q (fail .decompressionError "Decompressor input buffer overflow" c))
    (hmove : ∀ {c n seg}, P c → seg.bytes = (Chain.bytes c.own.input).take n → P (moveInput n seg c))
    {fuel : ℕ} (hfuel : c.own.input.size ≤ fuel) (h : P c) : Q (copyToPendingInput fuel c) := by
  induction fuel generalizing c with
  | zero =>
    have hnil : Chain.bytes c.own.input = [] := by
      rw [Chain.size_eq (hwf h)] at hfuel
      exact List.length_eq_zero_iff.mp (by omega)
    exact hempty h hnil
  | succ fuel ih =>
    rw [copyToPendingInput]
    cases he : c.own.input.empty with
    | true => exact hempty h ((Chain.empty_iff (hwf h)).mp he)
    | false =>
      simp only [Bool.false_eq_true, if_false]
      split
      · exact hfail h
      obtain ⟨s, -, hsize, hpos, -⟩ := Chain.front (hwf h) he
      have hkSize : 0 < Segment.kSize := by decide
      have hround : ∀ n seg, 0 < n → seg.bytes = (Chain.bytes c.own.input).take n →
          Q (copyToPendingInput fuel (moveInput n seg c)) := by
        intro n seg hn hseg
        have hnext := hmove h hseg
        refine ih ?_ hnext
        rw [Chain.size_eq (hwf h)] at hfuel
        rw [Chain.size_eq (hwf hnext)]
        show (Chain.bytes (c.own.input.consume id n)).length ≤ fuel
        rw [Chain.bytes_consumed (hwf h), List.length_drop]
        omega
      refine hround _ _ (by omega) ?_
      show (c.own.input.copyTo id 0 _).take Segment.kSize = _
      rw [BufferChain.copyTo_eq, List.drop_zero, List.take_take, Nat.min_eq_right (Nat.min_le_right _ _)]

/-- Moved bytes are still owed. -/
theorem held_moveInput {n : ℕ} {seg : Segment} (hseg : seg.bytes = (Chain.bytes c.own.input).take n)
    (h : Held (Chain.bytes c.own.pendingInput ++ Chain.bytes c.own.input) c) :
    Held (Chain.bytes (moveInput n seg c).own.pendingInput ++ Chain.bytes (moveInput n seg c).own.input)
      (moveInput n seg c) := by
  rw [bytes_moveInput h.wfPending h.wfInput hseg]
  exact ⟨⟨h.wfOutput, Chain.wf_appended h.wfPending _, Chain.wf_consumed h.wfInput _, h.calls, h.closed,
    h.scheduled, h.signals,
    fun hd => ⟨(h.done hd).input, (h.done hd).result, (h.done hd).output, (h.done hd).empty⟩⟩,
    fun hc => ⟨(h.accounted hc).input, (h.accounted hc).output, (h.accounted hc).alive⟩⟩

/-- **`CopyToPendingInput`**: the rest of the caller's chain is owed. -/
theorem copyToPendingInput_spec {fuel : ℕ} (hfuel : c.own.input.size ≤ fuel)
    (h : Held (Chain.bytes c.own.pendingInput ++ Chain.bytes c.own.input) c) :
    Held (Chain.bytes (copyToPendingInput fuel c).own.pendingInput) (copyToPendingInput fuel c) ∧
      Apart c (copyToPendingInput fuel c) := by
  refine copyToPendingInput_preserves
    (P := fun d => Held (Chain.bytes d.own.pendingInput ++ Chain.bytes d.own.input) d ∧ Apart c d)
    (Q := fun d => Held (Chain.bytes d.own.pendingInput) d ∧ Apart c d) ?_ ?_ ?_ ?_ hfuel ⟨h, .refl c⟩
  · rintro d ⟨hheld, -⟩
    exact hheld.wfInput
  · rintro d ⟨hheld, hapart⟩ hnil
    rw [hnil, List.append_nil] at hheld
    exact ⟨hheld, hapart⟩
  · rintro d ⟨hheld, hapart⟩
    exact ⟨held_fail _ _ hheld.toSane, hapart.trans (apart_fail _ _ d)⟩
  · rintro d n seg ⟨hheld, hapart⟩ hseg
    exact ⟨held_moveInput hseg hheld, (hapart.trans (apart_update _ d)).trans (apart_update _ _)⟩

/-- **`OnData` under its guard.** -/
theorem dataBody_spec (D : Downstream Z δ)
    (h : Held (Chain.bytes c.own.pendingInput ++ Chain.bytes c.own.input) c) (hc : c.closed = false) :
    Idle (dataBody (answer D) c) ∧ Apart c (dataBody (answer D) c) := by
  rw [dataBody]
  cases he : c.own.pendingInput.empty with
  | false =>
    simp only [Bool.not_false, if_true]
    split
    · exact ⟨idle_of_closed (sane_fail _ _ h.toSane) (fail_closed _ _ _), apart_fail _ _ c⟩
    · obtain ⟨h1, h2, h3, -⟩ := Chain.compactAndSplice_spec h.wfPending h.wfInput
      have hsplice : Held (Chain.bytes (spliceInput c).own.pendingInput) (spliceInput c) := by
        have hb : Chain.bytes (spliceInput c).own.pendingInput =
            Chain.bytes c.own.pendingInput ++ Chain.bytes c.own.input := h2
        rw [hb]
        exact ⟨⟨h.wfOutput, h1, h3, h.calls, h.closed, h.scheduled, h.signals,
          fun hd => absurd hd (h.noDone hc)⟩,
          fun hc => ⟨(h.accounted hc).input, (h.accounted hc).output, (h.accounted hc).alive⟩⟩
      have hdec := decompressChain_spec D .pending hsplice hc
      exact ⟨hdec.idle, (apart_update _ c).trans hdec.toApart⟩
  | true =>
    have hnil := (Chain.empty_iff h.wfPending).mp he
    have hinput : Held (Chain.bytes (Source.input.get c.own)) c := by
      rw [hnil, List.nil_append] at h
      exact h
    have hdec := decompressChain_spec D .input hinput hc
    simp only [Bool.not_true, Bool.false_eq_true, if_false]
    generalize decompressChain (answer D) .input c = r at hdec
    obtain ⟨d, outcome⟩ := r
    have hends := hdec.ends
    have hpending : Chain.bytes d.own.pendingInput = [] := by
      have hother : d.own.pendingInput = c.own.pendingInput := hdec.other
      rw [hother]
      exact hnil
    cases outcome with
    | error =>
      rw [if_pos rfl]
      exact ⟨idle_of_closed hends.1.toSane hends.2, hdec.toApart⟩
    | complete =>
      have hdone : Chain.bytes d.own.input = [] := hdec.complete rfl
      rw [if_neg (by simp), (Chain.empty_iff hends.1.wfInput).mpr hdone]
      simp only [Bool.not_true, Bool.false_eq_true, if_false]
      refine ⟨⟨?_, fun _ _ => hpending⟩, hdec.toApart⟩
      rw [hpending]
      exact hends.1
    | suspended =>
      have howed : Held (Chain.bytes d.own.pendingInput ++ Chain.bytes d.own.input) d := by
        rw [hpending, List.nil_append]
        exact hends.1
      rw [if_neg (by simp)]
      obtain ⟨hcopy, hapart⟩ := copyToPendingInput_spec (Nat.le_refl _) howed
      simp only
      split
      · have hsus := hapart.suspended hends.2.2
        exact ⟨⟨hcopy, fun _ hs => absurd (hsus.symm.trans hs) (by simp)⟩, hdec.toApart.trans hapart⟩
      · rename_i hempty
        have hnone : Chain.bytes d.own.input = [] :=
          (Chain.empty_iff hends.1.wfInput).mp (by simpa using hempty)
        rw [hnone, List.append_nil] at howed
        exact ⟨⟨howed, fun _ _ => hpending⟩, hdec.toApart⟩

theorem idle_leave (h : Idle c) : Idle c.leave := by
  refine ⟨?_, ?_⟩
  · rw [Component.leave_own]
    exact held_leave h.toHeld
  · rw [Component.leave_closed, Component.leave_suspended, Component.leave_own]
    exact h.drained

/-- **`OnData`.** -/
theorem onData_spec (D : Downstream Z δ) {data : Chain} (hwf : Chain.WF data) (h : Idle c) :
    Idle (onData (answer D) data c) ∧ Apart c (onData (answer D) data c) := by
  rw [onData, Component.guarded]
  cases hc : c.closed with
  | true => exact ⟨h, .refl c⟩
  | false =>
    have hreceive : Held (Chain.bytes (receive data c.enter).own.pendingInput ++
        Chain.bytes (receive data c.enter).own.input) (receive data c.enter) := by
      refine ⟨⟨h.wfOutput, h.wfPending, hwf, h.calls, h.closed, h.scheduled, h.signals,
        fun hd => absurd hd (h.noDone hc)⟩, fun _ => ?_⟩
      obtain ⟨h1, h2, h3⟩ := h.accounted hc
      refine ⟨?_, h2, h3⟩
      simp only [receive, update, Component.enter_own]
      rw [← List.append_assoc, h1]
    obtain ⟨hidle, hapart⟩ := dataBody_spec D hreceive hc
    simp only [Bool.false_eq_true, if_false]
    exact ⟨idle_leave hidle,
      (((apart_enter c).trans (apart_update _ _)).trans hapart).trans (apart_leave _)⟩

/-! ### Completing -/

/-- What answers an `OnDone`: nothing is left to do, or it is deferred. -/
structure Resolved (c : Component (ZstdDecompressor Z δ)) : Prop where
  idle : Idle c
  waits : Waits c
  answers : Answers c

theorem resolved_fail (code : ErrorCode) (message : String) (h : Idle c) (hw : Waits c) :
    Resolved (fail code message c) :=
  ⟨idle_of_closed (sane_fail code message h.toSane) (fail_closed _ _ _),
    (apart_fail _ _ c).waits hw, Or.inl (c.failed _).finalized⟩

theorem resolved_defer (h : Idle c) (hs : c.suspended = true) : Resolved c.deferOnDone :=
  ⟨⟨held_flags h.toHeld rfl rfl rfl rfl id, h.drained⟩, fun _ => hs, Or.inr rfl⟩

/-- `OnDone` goes on, when nothing is owed and the output is consumed. -/
theorem resolved_done (h : Idle c) (hw : Waits c) (hs : c.suspended = false)
    (hresult : c.own.lastDecompressResult = 0) (hempty : Chain.bytes c.own.outputChain = []) :
    Resolved c.emitDone.requestClose := by
  have hfin : c.closed = false → Finished c.own := by
    intro hc
    obtain ⟨h1, h2, -⟩ := h.accounted hc
    rw [h.drained hc hs, List.append_nil] at h1
    rw [hempty, List.append_nil] at h2
    exact ⟨h1, hresult, h2, hempty⟩
  have hheld : Held [] c.emitDone.requestClose := held_done h.toSane hfin
  refine ⟨idle_of_closed hheld.toSane (Component.requestClose_closed _), ?_, Or.inl ?_⟩
  · cases hc : c.closed with
    | true =>
      rw [Component.done_of_closed hc (h.closed.symm.trans hc)]
      exact hw
    | false =>
      have he := Component.ended_done hc (h.closed.symm.trans hc)
      rw [Waits, he.donePending, Component.suspended, he.suspendCount]
      exact hw
  · rw [← hheld.closed]
    exact Component.requestClose_closed _

/-- **The common end of `OnDone` and `FlushAndComplete`.** -/
theorem resolved_complete (D : Downstream Z δ) (h : Idle c) (hw : Waits c) (hs : c.suspended = false) :
    Resolved (complete (answer D) c) := by
  rw [complete]
  by_cases hresult : c.own.lastDecompressResult ≠ 0
  · rw [if_pos hresult]
    exact resolved_fail _ _ h hw
  have hresult' : c.own.lastDecompressResult = 0 := not_not.mp hresult
  rw [if_neg hresult]
  simp only [Component.completeWithFlush, Component.flushPendingData]
  cases he : c.own.outputChain.empty with
  | true => exact resolved_done h hw hs hresult' ((Chain.empty_iff h.wfOutput).mp he)
  | false =>
    obtain ⟨hheld, hans⟩ := answer_spec D h.toHeld
    have hw' := hans.waits hw
    simp only [Bool.false_eq_true, if_false]
    generalize answer D c = d at hheld hans hw'
    rw [← hans.pendingInput] at hheld
    cases hd : d.suspended with
    | true => exact resolved_defer ⟨hheld, fun _ hf => absurd (hd.symm.trans hf) (by simp)⟩ hd
    | false =>
      have hidle : Idle d := by
        refine ⟨hheld, fun hc _ => ?_⟩
        rw [hans.pendingInput]
        exact h.drained (hans.closed.symm.trans hc) hs
      cases hde : d.own.outputChain.empty with
      | true =>
        exact resolved_done hidle hw' hd (hans.result.trans hresult') ((Chain.empty_iff hidle.wfOutput).mp hde)
      | false => exact resolved_fail _ _ hidle hw'

/-- `ProcessPendingData`, from any state in which the pending input is owed. -/
theorem processPendingData_spec (D : Downstream Z δ) (h : Held (Chain.bytes c.own.pendingInput) c)
    (hs : c.suspended = false) :
    Idle (processPendingData (answer D) c).1 ∧ Apart c (processPendingData (answer D) c).1 ∧
      match (processPendingData (answer D) c).2 with
      | .complete => (processPendingData (answer D) c).1.suspended = false
      | .suspended => (processPendingData (answer D) c).1.suspended = true
      | .error => (processPendingData (answer D) c).1.closed = true := by
  rw [processPendingData]
  by_cases hskip : (c.closed || c.own.pendingInput.empty) = true
  · rw [if_pos hskip]
    refine ⟨⟨h, fun hc _ => ?_⟩, .refl c, hs⟩
    rw [hc, Bool.false_or] at hskip
    exact (Chain.empty_iff h.wfPending).mp hskip
  · have hopen : c.closed = false := by
      cases hc : c.closed with
      | true => simp [hc] at hskip
      | false => rfl
    have hdec := decompressChain_spec D .pending h hopen
    have hidle := hdec.idle
    have hends := hdec.ends
    have hapart := hdec.toApart
    rw [if_neg hskip]
    generalize decompressChain (answer D) .pending c = r at hidle hends hapart
    obtain ⟨d, outcome⟩ := r
    refine ⟨hidle, hapart, ?_⟩
    cases outcome with
    | complete => exact hends.2.2
    | suspended => exact hends.2.2
    | error => exact hends.2

/-- **`FlushAndComplete`** answers an `OnDone`. -/
theorem resolved_flushAndComplete (D : Downstream Z δ) (h : Held (Chain.bytes c.own.pendingInput) c)
    (hs : c.suspended = false) (hd : c.donePending = false) : Resolved (flushAndComplete (answer D) c) := by
  obtain ⟨hidle, hapart, hout⟩ := processPendingData_spec D h hs
  have hw : Waits (processPendingData (answer D) c).1 := by
    rw [Waits, hapart.donePending, hd]
    exact fun hf => absurd hf Bool.false_ne_true
  rw [flushAndComplete]
  generalize processPendingData (answer D) c = r at hidle hout hw
  obtain ⟨d, outcome⟩ := r
  cases outcome with
  | complete => exact resolved_complete D hidle hw hout
  | suspended => exact resolved_defer hidle hout
  | error => exact ⟨hidle, hw, Or.inl (hidle.closed.symm.trans hout)⟩

theorem resolved_leave (h : Resolved c) : Resolved c.leave :=
  ⟨idle_leave h.idle, (apart_leave c).waits h.waits, (apart_leave c).answers h.answers⟩

/-- **`OnDone`** is answered, or deferred while suspended. -/
theorem resolved_onDone (D : Downstream Z δ) (h : Idle c) (hw : Waits c) : Resolved (onDone (answer D) c) := by
  rw [onDone, Component.guarded]
  cases hc : c.closed with
  | true => exact ⟨h, hw, Or.inl (h.closed.symm.trans hc)⟩
  | false =>
    have henter : Idle c.enter := ⟨held_enter h.toHeld, h.drained⟩
    simp only [Bool.false_eq_true, if_false]
    refine resolved_leave ?_
    rw [doneBody]
    cases hs : c.suspended with
    | true =>
      rw [Component.enter_suspended, hs]
      exact resolved_defer henter hs
    | false =>
      have hempty : c.enter.own.pendingInput.empty = true :=
        (Chain.empty_iff h.wfPending).mpr (h.drained hc hs)
      simp only [Component.enter_suspended, hs, hempty, Bool.not_true, Bool.false_eq_true, if_false]
      exact resolved_complete D henter hw hs

/-! ### Resume -/

/-- `ProcessPending`, as a component resumes. -/
theorem processPending_spec (D : Downstream Z δ) (h : Held (Chain.bytes c.own.pendingInput) c)
    (hs : c.suspended = false) :
    Idle (processPending (answer D) c) ∧ Apart c (processPending (answer D) c) := by
  rw [processPending, Component.forwardData]
  cases he : c.own.outputChain.empty with
  | true =>
    obtain ⟨hidle, hapart, -⟩ := processPendingData_spec D h hs
    exact ⟨hidle, hapart⟩
  | false =>
    obtain ⟨hheld, hans⟩ := answer_spec D h
    simp only [Bool.false_eq_true, if_false]
    generalize answer D c = d at hheld hans
    rw [← hans.pendingInput] at hheld
    cases hd : d.suspended with
    | true => exact ⟨⟨hheld, fun _ hf => absurd (hd.symm.trans hf) (by simp)⟩, hans.toApart⟩
    | false =>
      obtain ⟨hidle, hapart, -⟩ := processPendingData_spec D hheld hd
      exact ⟨hidle, hans.toApart.trans hapart⟩

/-- The deferred `OnDone` at the end of a `Resume`. -/
theorem completeDeferred_spec (D : Downstream Z δ) (h : Idle c) :
    Idle (c.completeDeferred (flushAndComplete (answer D))) ∧
      Waits (c.completeDeferred (flushAndComplete (answer D))) ∧
      (Answers c → Answers (c.completeDeferred (flushAndComplete (answer D)))) := by
  rw [Component.completeDeferred]
  split
  · rename_i hcond
    have hclear : Held (Chain.bytes c.clearDone.own.pendingInput) c.clearDone :=
      held_flags h.toHeld rfl rfl rfl rfl id
    have hres := resolved_flushAndComplete D hclear hcond.2 rfl
    exact ⟨hres.idle, hres.waits, fun _ => hres.answers⟩
  · rename_i hcond
    refine ⟨h, fun hd => ?_, id⟩
    by_contra hs
    exact hcond ⟨hd, Bool.eq_false_iff.mpr hs⟩

/-- **`Resume`.** -/
theorem resume_spec (D : Downstream Z δ) (h : Idle c) (hs : c.suspended = true) :
    Idle (resume (answer D) c) ∧ Waits (resume (answer D) c) ∧ (Answers c → Answers (resume (answer D) c)) := by
  rw [resume]
  by_cases hone : c.suspendCount = 1
  · have hcount : Held (Chain.bytes c.own.pendingInput) { c with suspendCount := 0 } := held_count 0 h.toHeld
    cases hclosed : c.closed with
    | true =>
      rw [Component.resume_of_closed hone hclosed]
      obtain ⟨h1, h2, h3⟩ := completeDeferred_spec D (idle_of_closed hcount.toSane hclosed)
      exact ⟨h1, h2, h3⟩
    | false =>
      rw [Component.resume_of_eq hone hclosed]
      have hresumed : Held (Chain.bytes c.resumed.own.pendingInput) c.resumed := held_enter hcount
      obtain ⟨hp, hapart⟩ := processPending_spec D hresumed rfl
      have hup : Idle (processPending (answer D) c.resumed).resumeUpstream ∧
          (Answers c → Answers (processPending (answer D) c.resumed).resumeUpstream) := by
        have ha : Answers c → Answers (processPending (answer D) c.resumed) := fun ha => hapart.answers ha
        rw [Component.resumeUpstream]
        split
        · exact ⟨hp, ha⟩
        · exact ⟨⟨held_flags hp.toHeld rfl rfl rfl rfl id, hp.drained⟩, ha⟩
      obtain ⟨h1, h2, h3⟩ := completeDeferred_spec D hup.1
      exact ⟨idle_leave h1, (apart_leave _).waits h2, fun ha => (apart_leave _).answers (h3 (hup.2 ha))⟩
  · have hpos := (Component.suspended_iff c).mp hs
    have hstill : Component.suspended { c with suspendCount := c.suspendCount - 1 } = true :=
      (Component.suspended_iff _).mpr (by simp only; omega)
    rw [Component.resume_of_ne hone]
    exact ⟨⟨held_count _ h.toHeld, fun _ hf => absurd (hstill.symm.trans hf) (by simp)⟩, fun _ => hstill, id⟩

/-! ### Runs -/

/-- Every input but a close from outside. -/
def Input.runs : Input → Bool
  | .requestClose => false
  | _ => true

/-- The end of the input. -/
def Input.ends : Input → Bool
  | .done => true
  | _ => false

theorem idle_doClose (h : Idle c) (hc : c.closed = true) : Idle (doClose c) :=
  idle_of_closed ⟨Chain.wf_cleared _, Chain.wf_cleared _, h.wfInput, h.calls, h.closed, h.scheduled, h.signals,
    fun hd => ⟨(h.done hd).input, (h.done hd).result, (h.done hd).output, Chain.bytes_cleared _⟩⟩ hc

theorem idle_propagateError (e : Error) (h : Idle c) :
    Idle (c.propagateError e) ∧ Apart c (c.propagateError e) := by
  rw [Component.propagateError, Component.guarded]
  cases hc : c.closed with
  | true => exact ⟨h, .refl c⟩
  | false =>
    obtain ⟨code, message, osErrno, retryAfter⟩ := e
    have he := Component.ended_error (c := c.enter) hc (h.closed.symm.trans hc) ⟨code, message, osErrno, retryAfter⟩
    have hsane : Sane (c.enter.emitError ⟨code, message, osErrno, retryAfter⟩).requestClose := by
      refine ⟨?_, ?_, ?_, ?_, ?_, fun _ => he.closed, ?_, ?_⟩
      · rw [he.own]; exact h.wfOutput
      · rw [he.own]; exact h.wfPending
      · rw [he.own]; exact h.wfInput
      · rw [he.own]; exact h.calls
      · rw [he.closed, he.finalized]
      · rw [he.signals, he.finalized, Component.enter_signals, h.noSignal hc]
        rfl
      · rw [he.signals, Component.enter_signals, h.noSignal hc]
        exact fun hd => absurd hd (by simp)
    simp only [Bool.false_eq_true, if_false]
    refine ⟨idle_leave (idle_of_closed hsane he.closed), Apart.trans ⟨he.donePending, ?_, ?_⟩ (apart_leave _)⟩
    · exact Nat.le_of_eq he.suspendCount.symm
    · exact fun _ => he.finalized

theorem idle_suspend (h : Idle c) : Idle c.suspend ∧ Apart c c.suspend := by
  have hsus : c.suspend.suspended = true := by
    rw [Component.suspended_iff, Component.suspend]
    split <;> exact Nat.succ_pos _
  have hheld : Held (Chain.bytes c.suspend.own.pendingInput) c.suspend := by
    rw [Component.suspend_own, Component.suspend]
    split <;> exact held_flags h.toHeld rfl rfl rfl rfl id
  refine ⟨⟨hheld, fun _ hf => absurd (hsus.symm.trans hf) (by simp)⟩, ?_⟩
  rw [Component.suspend]
  split <;> exact ⟨rfl, Nat.le_succ _, id⟩

/-- **One input.** -/
theorem step_spec (D : Downstream Z δ) {i : Input} (hi : i.runs = true) (h : Idle c) (hw : Waits c) :
    Idle (step (answer D) c i) ∧ Waits (step (answer D) c i) ∧
      (Answers c ∨ i.ends = true → Answers (step (answer D) c i)) := by
  have hof : ∀ {d : Component (ZstdDecompressor Z δ)}, Idle d ∧ Apart c d → i.ends = false →
      Idle d ∧ Waits d ∧ (Answers c ∨ i.ends = true → Answers d) := fun hd he =>
    ⟨hd.1, hd.2.waits hw, fun ha => hd.2.answers (ha.resolve_right (by simp [he]))⟩
  cases i with
  | data segments =>
    exact hof (onData_spec D (Chain.appendAll_spec (Chain.wf_empty none) segments).1 h) rfl
  | done =>
    have hres := resolved_onDone D h hw
    exact ⟨hres.idle, hres.waits, fun _ => hres.answers⟩
  | error e => exact hof (idle_propagateError e h) rfl
  | suspend => exact hof (idle_suspend h) rfl
  | resume =>
    rw [step]
    split
    · rename_i hs
      obtain ⟨h1, h2, h3⟩ := resume_spec D h hs
      exact ⟨h1, h2, fun ha => h3 (ha.resolve_right (by simp [Input.ends]))⟩
    · exact hof ⟨h, .refl c⟩ rfl
  | requestClose => simp [Input.runs] at hi
  | runClose =>
    rw [step]
    split
    · rename_i hs
      exact hof ⟨idle_doClose h (h.scheduled (Or.inr hs)), apart_update _ c⟩ rfl
    · exact hof ⟨h, .refl c⟩ rfl

theorem idle_new (Z : ZstdDecoder) (next : δ) : Idle (newZstdDecompressor Z next) := by
  have hnil : Chain.bytes (newZstdDecompressor Z next).own.pendingInput = [] := BufferChain.bytes_nil id none
  have hnil' : Chain.bytes (newZstdDecompressor Z next).own.outputChain = [] := BufferChain.bytes_nil id none
  refine ⟨⟨⟨Chain.wf_empty none, Chain.wf_empty none, Chain.wf_empty none, by simp [newZstdDecompressor], rfl,
    by simp [newZstdDecompressor], rfl, by simp [newZstdDecompressor]⟩, fun _ => ⟨?_, ?_, rfl⟩⟩, fun _ _ => hnil⟩
  · rw [hnil]
    rfl
  · rw [hnil']
    rfl

theorem run_spec (D : Downstream Z δ) {inputs : List Input} (hi : ∀ i ∈ inputs, i.runs = true) (h : Idle c)
    (hw : Waits c) :
    Idle (Runs.run (step (answer D)) c inputs) ∧ Waits (Runs.run (step (answer D)) c inputs) ∧
      ((Answers c ∨ ∃ i ∈ inputs, i.ends = true) → Answers (Runs.run (step (answer D)) c inputs)) := by
  induction inputs generalizing c with
  | nil => exact ⟨h, hw, fun ha => ha.resolve_right (by simp)⟩
  | cons i inputs ih =>
    obtain ⟨h1, h2, h3⟩ := step_spec D (hi i List.mem_cons_self) h hw
    obtain ⟨h4, h5, h6⟩ := ih (fun j hj => hi j (List.mem_cons_of_mem _ hj)) h1 h2
    refine ⟨h4, h5, fun ha => h6 ?_⟩
    rcases ha with ha | ⟨j, hj, he⟩
    · exact Or.inl (h3 (Or.inl ha))
    · rcases List.mem_cons.mp hj with rfl | hj
      · exact Or.inl (h3 (Or.inr he))
      · exact Or.inr ⟨j, hj, he⟩

/-- The bytes that the decoder took and those pending are the bytes received; those consumed and those in the
output chain are the bytes that it wrote. -/
def Conserved (h : ZstdDecompressor Z δ) : Prop :=
  h.fed ++ Chain.bytes h.pendingInput = h.received ∧ h.consumed ++ Chain.bytes h.outputChain = h.decoded

/-- **The decoder is fed each byte once.**  In every run of a component that nobody else closes, with any
downstream that consumes and suspends: the bytes received are those of the inputs; as long as it is open, the bytes
are conserved on both sides of the decoder; it is never called while suspended; after `OnDone`, when not suspended, exactly one terminal signal
was given; and it was `OnDone` only if all input was decoded, the last result was 0 and all output was
consumed. -/
theorem decoder_fed_once (Z : ZstdDecoder) (D : Downstream Z δ) (next : δ) (inputs : List Input)
    (hi : ∀ i ∈ inputs, i.runs = true) :
    let c := Runs.run (step (answer D)) (newZstdDecompressor Z next) inputs
    (c.closed = false → Conserved c.own) ∧ (∀ suspended ∈ c.own.calls, suspended = false) ∧
      ((∃ i ∈ inputs, i.ends = true) → c.suspended = false → c.signals.length = 1) ∧
      (.done ∈ c.signals → Finished c.own) ∧
      c.own.received = takenBy (answer D) (newZstdDecompressor Z next) inputs := by
  intro c
  obtain ⟨hidle, hwaits, hanswers⟩ := run_spec D hi (idle_new Z next) fun hd => absurd hd Bool.false_ne_true
  refine ⟨fun hc => ⟨(hidle.accounted hc).input, (hidle.accounted hc).output⟩, hidle.calls, fun hends hs => ?_,
    hidle.done, received_run (received_answer D) _ inputs⟩
  rcases hanswers (Or.inr hends) with hf | hd
  · have hsig := hidle.signals
    rw [hf, if_pos rfl] at hsig
    exact hsig
  · exact absurd ((hwaits hd).symm.trans hs) (by simp)

/-! ### A frame -/

/-- A single-segment frame with one raw block, `hi`. -/
def hiFrame : List Byte := [40, 181, 47, 253, 32, 2, 17, 0, 0, 104, 105]

/-- A downstream that follows a script of bytes to consume and times to suspend, and then takes everything. -/
def scripted : Downstream Z (List (ℕ × ℕ)) := fun c =>
  match c.own.next with
  | [] => ⟨c.own.outputChain.size, 0, []⟩
  | (n, k) :: rest => ⟨n, k, rest⟩

/-- The frame in two calls, the end while the downstream suspends, and a resume. -/
def hiInputs : List Input :=
  [.data [.ofBytes (hiFrame.take 9)], .data [.ofBytes (hiFrame.drop 9)], .done, .resume]

theorem decoder_fed_once_hi :
    let c := Runs.run (step (answer scripted)) (newZstdDecompressor (canned hiFrame [104, 105]) [(1, 1)]) hiInputs
    c.signals.length = 1 ∧ Finished c.own := by
  have h := decoder_fed_once (canned hiFrame [104, 105]) scripted [(1, 1)] hiInputs (by decide)
  exact ⟨h.2.2.1 ⟨.done, by simp [hiInputs], rfl⟩ (by decide +kernel), h.2.2.2.1 (by decide +kernel)⟩

/-- **Input behind an error is dropped**: it is neither fed nor pending. -/
theorem not_conserved_after_error :
    ¬Conserved (Runs.run (step (answer scripted)) (newZstdDecompressor (canned hiFrame [104, 105]) [])
      [.data [.ofBytes [0, 0, 0, 0, 0], .ofBytes [1]]]).own := by
  rw [Conserved]
  decide +kernel

end DbnPipe.Zstd
