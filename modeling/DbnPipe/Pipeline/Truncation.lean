import DbnPipe.Pipeline.StreamToParser
import DbnPipe.Stream.ZstdConservation

/-!
# Truncated streams

`ZstdDecompressor` in front of the parser, as in the historical pipeline, and the theorem about both
compositions.

* `Zstd.toParser` — `OnData` of the parser, as the downstream of `ZstdDecompressor`;
* `delivered_chunkLoop`, `delivered_decompressChain` — **the link is kept** by the loops;
* `resting_step`, `resting_run` — by every input but a close from outside, and so by a run;
* `truncation_detected` — the theorem: `OnComplete` reaches the sink only behind a whole stream, all of it
  delivered; after `OnDone`, when not suspended, a stream that is not whole has ended in one `OnError`.
-/

namespace DbnPipe.Zstd

open Dbn Link

/-! ### The composition -/

variable (D : Databento) {Z : ZstdDecoder}

/-- `OnData` of the parser on the output chain, the sink's calls of `Suspend` included. -/
def toParser : Downstream Z ParserStage := fun c =>
  let taken := (c.own.next.hear c.signals).take D c.own.outputChain
  { consume := taken.consumed, suspends := taken.suspends, state := taken.stage }

/-- Where `ZstdDecompressor` keeps what the link is about. -/
def parserView (Z : ZstdDecoder) : View (ZstdDecompressor Z ParserStage) where
  consumed := ZstdDecompressor.consumed
  chain := ZstdDecompressor.outputChain
  stage := ZstdDecompressor.next
  ok _ := True

variable {D} {c : Component (ZstdDecompressor Z ParserStage)}

/-! ### The link -/

/-- **The parser's `OnData`** keeps the link. -/
theorem delivered_answer (h : Running D (parserView Z) c) : Delivered D (parserView Z) c (answer (toParser D) c) := by
  obtain ⟨upstream, heq⟩ := suspendTimes_eq (toParser D c).suspends
    (consume (toParser D c).consume (update (fun h => { h with next := (toParser D c).state }) c))
  have hanswer : answer (toParser D) c = _ := heq
  rw [hanswer]
  exact ⟨running_deliver h rfl rfl rfl trivial (Chain.wf_consumed h.wf _) rfl (Chain.bytes_consumed_min h.wf _) rfl,
    rfl⟩

/-- An update beside the link. -/
theorem delivered_update (f : ZstdDecompressor Z ParserStage → ZstdDecompressor Z ParserStage)
    (hconsumed : (f c.own).consumed = c.own.consumed) (hchain : (f c.own).outputChain = c.own.outputChain)
    (hnext : (f c.own).next = c.own.next) (h : Running D (parserView Z) c) :
    Delivered D (parserView Z) c (update f c) :=
  ⟨running_beside h rfl rfl trivial hconsumed hchain hnext, rfl⟩

/-- What the decoder wrote goes to the chain. -/
theorem delivered_appendOutput {input : List Byte} (t : Decoded Z.State input Segment.kSize)
    (h : Running D (parserView Z) c) : Delivered D (parserView Z) c (appendOutput t c) :=
  ⟨running_arrive h rfl rfl trivial rfl (Chain.wf_appended h.wf _) (Chain.bytes_appended h.wf _) rfl, rfl⟩

/-- **The loop over a chunk.** -/
theorem delivered_chunkLoop (chunk : List Byte) (fuel pos : ℕ) (h : Running D (parserView Z) c) :
    Delivered D (parserView Z) c (chunkLoop (answer (toParser D)) chunk fuel pos c).1 := by
  induction fuel generalizing pos c with
  | zero => exact .refl h
  | succ fuel ih =>
    have hcall : Delivered D (parserView Z) c (recordCall c) := delivered_update _ rfl rfl rfl h
    rw [chunkLoop]
    split
    · exact .refl h
    split
    · exact .refl h
    simp only
    split
    · exact hcall.trans (delivered_error _ hcall.running)
    rename_i t _
    have habsorb := hcall.trans (delivered_update _ rfl rfl rfl hcall.running : Delivered D _ _ (absorb t _))
    split
    · exact habsorb.trans (ih _ habsorb.running)
    split
    · exact habsorb.trans (delivered_error _ habsorb.running)
    · have hout := habsorb.trans (delivered_appendOutput t habsorb.running)
      have hforward := hout.trans (delivered_forwardData (V := parserView Z) (fun _ => delivered_answer) hout.running)
      split
      · exact hforward
      · exact hforward.trans (ih _ hforward.running)

theorem delivered_consumeSource (src : Source) (n : ℕ) (h : Running D (parserView Z) c) :
    Delivered D (parserView Z) c (consumeSource src n c) := by
  cases src <;> exact delivered_update _ rfl rfl rfl h

/-- **The loop over a chain.** -/
theorem delivered_chainLoop (src : Source) (fuel : ℕ) (h : Running D (parserView Z) c) :
    Delivered D (parserView Z) c (chainLoop (answer (toParser D)) src fuel c).1 := by
  induction fuel generalizing c with
  | zero => exact .refl h
  | succ fuel ih =>
    rw [chainLoop]
    split
    · exact .refl h
    split
    · exact .refl h
    rename_i s pos _
    have hchunk := delivered_chunkLoop
      ((s.bytes.drop pos).take ((src.get c.own).contiguousSize id)) (chunkFuel c.own
        ((s.bytes.drop pos).take ((src.get c.own).contiguousSize id))) 0 h
    simp only
    split
    · have hnext := fun n => hchunk.trans (delivered_consumeSource src n hchunk.running)
      exact (hnext _).trans (ih (hnext _).running)
    · exact hchunk.trans (delivered_consumeSource src _ hchunk.running)
    · exact hchunk

theorem delivered_decompressChain (src : Source) (h : Running D (parserView Z) c) :
    Delivered D (parserView Z) c (decompressChain (answer (toParser D)) src c).1 := by
  rw [decompressChain]
  split
  · exact delivered_error _ h
  split
  · exact .refl h
  · exact delivered_chainLoop src _ h

theorem delivered_copyToPendingInput (fuel : ℕ) (h : Running D (parserView Z) c) :
    Delivered D (parserView Z) c (copyToPendingInput fuel c) := by
  induction fuel generalizing c with
  | zero => exact .refl h
  | succ fuel ih =>
    rw [copyToPendingInput]
    split
    · exact .refl h
    split
    · exact delivered_error _ h
    · have hmove := fun seg =>
        delivered_update (fun h => { h with pendingInput := BufferChain.append id h.pendingInput seg }) rfl rfl rfl h
      have hnext := fun n seg => (hmove seg).trans (delivered_consumeSource .input n (hmove seg).running)
      exact (hnext _ _).trans (ih (hnext _ _).running)

/-- `OnData` under its guard. -/
theorem delivered_dataBody (h : Running D (parserView Z) c) :
    Delivered D (parserView Z) c (dataBody (answer (toParser D)) c) := by
  rw [dataBody]
  split
  · split
    · exact delivered_error _ h
    · have hsplice : Delivered D (parserView Z) c (spliceInput c) := delivered_update _ rfl rfl rfl h
      exact hsplice.trans (delivered_decompressChain .pending hsplice.running)
  · have hchain := delivered_decompressChain .input h
    simp only
    split
    · exact hchain
    split
    · exact hchain.trans (delivered_copyToPendingInput _ hchain.running)
    · exact hchain

theorem delivered_processPendingData (h : Running D (parserView Z) c) :
    Delivered D (parserView Z) c (processPendingData (answer (toParser D)) c).1 := by
  rw [processPendingData]
  split
  · exact .refl h
  · exact delivered_decompressChain .pending h

theorem running_processPending (h : Running D (parserView Z) c) :
    Running D (parserView Z) (processPending (answer (toParser D)) c) := by
  have hforward := delivered_forwardData (V := parserView Z) (fun _ => delivered_answer) h
  rw [processPending]
  split
  · exact hforward.running
  · exact (delivered_processPendingData hforward.running).running

/-- The common end of `OnDone` and `FlushAndComplete`. -/
theorem resting_complete (h : Running D (parserView Z) c) (hd : c.donePending = false) :
    Resting D (parserView Z) (complete (answer (toParser D)) c) := by
  rw [complete]
  split
  · exact (running_error _ h).resting
  · exact Link.resting_complete (V := parserView Z) (fun _ => delivered_answer) h hd

/-- How `OnDone` goes on behind the pending input. -/
theorem resting_behind {r : Component (ZstdDecompressor Z ParserStage) × DecompressResult}
    (h : Delivered D (parserView Z) c r.1) (hd : c.donePending = false) :
    Resting D (parserView Z) (match r.2 with
      | .error => r.1
      | .suspended => r.1.deferOnDone
      | .complete => complete (answer (toParser D)) r.1) := by
  split
  · exact h.running.resting
  · exact Running.resting (running_congr h.running rfl rfl rfl)
  · exact resting_complete h.running (h.donePending.trans hd)

/-- **`FlushAndComplete`.** -/
theorem resting_flushAndComplete (h : Running D (parserView Z) c) (hd : c.donePending = false) :
    Resting D (parserView Z) (flushAndComplete (answer (toParser D)) c) :=
  resting_behind (delivered_processPendingData h) hd

/-- **`OnDone`**; a component that is not suspended has deferred none. -/
theorem resting_onDone (hw : Waits c) (h : Resting D (parserView Z) c) :
    Resting D (parserView Z) (onDone (answer (toParser D)) c) := by
  refine resting_guarded (fun henter => ?_) h
  rw [doneBody]
  split
  · exact Running.resting (running_congr henter rfl rfl rfl)
  rename_i hs
  have hd : c.donePending = false := by
    by_contra hd
    exact hs (hw (Bool.not_eq_false _ ▸ hd))
  split
  · exact resting_behind (delivered_decompressChain .pending henter) hd
  · exact resting_complete henter hd

/-- **One input** keeps the link. -/
theorem resting_step {i : Input} (hi : i.runs = true) (hidle : Idle c) (hw : Waits c)
    (h : Resting D (parserView Z) c) : Resting D (parserView Z) (step (answer (toParser D)) c i) := by
  cases i with
  | data segments =>
    rw [step, onData]
    refine resting_guarded (fun henter => ?_) h
    have hreceive := fun data =>
      (delivered_update _ rfl rfl rfl henter : Delivered D (parserView Z) c.enter (receive data c.enter))
    exact (delivered_dataBody (hreceive _).running).running.resting
  | done => exact resting_onDone hw h
  | error e => exact resting_propagateError e h
  | suspend => exact resting_suspend h
  | resume =>
    rw [step]
    split
    · exact resting_resume (fun _ => running_processPending) (fun _ => resting_flushAndComplete) h
    · exact h
  | requestClose => simp [Input.runs] at hi
  | runClose =>
    rw [step]
    split
    · rename_i hs
      have hfinalized := hidle.closed.symm.trans (hidle.scheduled (Or.inr hs))
      exact resting_clear h (Component.signals_ne_nil hidle.signals hfinalized) rfl rfl rfl rfl trivial rfl
        (Chain.wf_cleared _) (Chain.bytes_cleared _) rfl
    · exact h

theorem resting_new (Z : ZstdDecoder) (turns : List SinkTurn) :
    Resting D (parserView Z) (newZstdDecompressor Z { turns := turns }) := by
  have hnil : Chain.bytes (newZstdDecompressor Z ({ turns := turns } : ParserStage)).own.outputChain = [] :=
    BufferChain.bytes_nil id none
  refine ⟨⟨trivial, Chain.wf_empty none, ?_, fun _ => rfl⟩, fun hd => absurd hd List.not_mem_nil⟩
  show Follows D [] (Chain.bytes (newZstdDecompressor Z ({ turns := turns } : ParserStage)).own.outputChain) [] _
  rw [hnil]
  exact Follows.new turns

/-- **A run** keeps the link. -/
theorem resting_run {inputs : List Input} (hi : ∀ i ∈ inputs, i.runs = true) (hidle : Idle c) (hw : Waits c)
    (h : Resting D (parserView Z) c) : Resting D (parserView Z) (Runs.run (step (answer (toParser D))) c inputs) := by
  induction inputs generalizing c with
  | nil => exact h
  | cons i inputs ih =>
    have hi' := hi i List.mem_cons_self
    obtain ⟨h1, h2, -⟩ := step_spec (toParser D) hi' hidle hw
    exact ih (fun j hj => hi j (List.mem_cons_of_mem _ hj)) h1 h2 (resting_step hi' hidle hw h)

end DbnPipe.Zstd

namespace DbnPipe.Truncation

open Dbn

/-! ### The theorem -/

/-- What the sink has been told about the stream `bytes`; `ended` says that `OnDone` came and nobody is
suspended. -/
structure Detected (D : Databento) (bytes : List Byte) (ended : Prop) (events : List SinkEvent) : Prop where
  complete : .complete ∈ events → Complete D bytes events
  ends : ended → Failed events ∨ Complete D bytes events
  truncated : ended → ¬Whole bytes → Failed events

variable {D : Databento} {bytes consumed held : List Byte} {ended : Prop} {events : List SinkEvent}
  {signals : List Signal} {t : ParserStage}

theorem not_complete_batches (batches : List (List RecordRef)) : SinkEvent.complete ∉ batches.map .data := by
  intro h
  obtain ⟨_, -, h⟩ := List.mem_map.mp h
  cases h

theorem not_complete_of_failed (h : Failed events) : .complete ∉ events := by
  obtain ⟨batches, e, rfl⟩ := h
  intro h
  rcases List.mem_append.mp h with h | h
  · exact not_complete_batches batches h
  · exact absurd (List.mem_singleton.mp h) (by simp)

/-- Only `OnDone` tells the sink that the stream is complete. -/
theorem complete_of_mem (h : Follows D consumed held signals t) (hc : .complete ∈ t.events signals) :
    .done ∈ signals ∧ Complete D consumed (t.events signals) := by
  by_cases hne : signals = []
  · subst hne
    rcases h.before with ⟨batches, hb⟩ | hf
    · rw [hb] at hc
      exact absurd hc (not_complete_batches batches)
    · exact absurd hc (not_complete_of_failed hf)
  · exact (h.ends hne).resolve_left fun hf => not_complete_of_failed hf hc

/-- A parser that follows the chain detects the truncation. -/
theorem detected_of_follows (h : Follows D consumed held signals t) (hdone : .done ∈ signals → consumed = bytes)
    (hended : ended → signals ≠ []) : Detected D bytes ended (t.events signals) := by
  have hends : ended → Failed (t.events signals) ∨ Complete D bytes (t.events signals) := by
    intro he
    rcases h.ends (hended he) with hf | ⟨hd, hc⟩
    · exact .inl hf
    · rw [hdone hd] at hc
      exact .inr hc
  refine ⟨fun hc => ?_, hends, fun he hw => (hends he).resolve_right fun hc => hw ?_⟩
  · obtain ⟨hd, hcomplete⟩ := complete_of_mem h hc
    rw [hdone hd] at hcomplete
    exact hcomplete
  · obtain ⟨metadata, records, -, hbytes, -⟩ := hc
    exact ⟨metadata, records, hbytes⟩

/-- **Truncation is always detected at the parser.**  For `CramAuth` and for `ZstdDecompressor` in front of the
parser, in every run of a component that nobody else closes, with any turns of the sink: `OnComplete` reaches
it only if the bytes received, or decompressed, are an optional complete metadata block and complete records,
all of them delivered before; once `OnDone` came and nobody is suspended, it has got `OnComplete` or one
`OnError` as the last call; and the latter if the bytes are not whole. -/
theorem truncation_detected (D : Databento) (turns : List SinkTurn) :
    (∀ (sha256 : List Byte → List Byte) (apiKey dataset : List Byte) (inputs : List Live.Input),
      (∀ i ∈ inputs, i.runs = true) →
      let c := Runs.run (Live.parserStep D sha256) (Live.beforeParser apiKey dataset turns) inputs
      Detected D c.own.received ((∃ i ∈ inputs, i.ends = true) ∧ c.suspended = false) (c.own.next.events c.signals)) ∧
    (∀ (Z : Zstd.ZstdDecoder) (inputs : List Zstd.Input), (∀ i ∈ inputs, i.runs = true) →
      let c := Runs.run (Zstd.step (Zstd.answer (Zstd.toParser D)))
        (Zstd.newZstdDecompressor Z { turns := turns }) inputs
      Detected D c.own.decoded ((∃ i ∈ inputs, i.ends = true) ∧ c.suspended = false) (c.own.next.events c.signals) ∧
        (.complete ∈ c.own.next.events c.signals → Zstd.Finished c.own)) := by
  refine ⟨fun sha256 apiKey dataset inputs hi => ?_, fun Z inputs hi => ?_⟩
  · intro c
    obtain ⟨hflow, hwaits, hlink, hanswers⟩ := Live.run_parserStep (D := D) sha256 hi
      (Live.flowing_beforeParser apiKey dataset turns) (fun hd => absurd hd Bool.false_ne_true)
      (Live.resting_beforeParser apiKey dataset turns)
    refine detected_of_follows hlink.follows (fun hd => (hflow.done hd).2.2) fun hended => ?_
    rcases hanswers (.inr hended.1) with hf | hd
    · exact Component.signals_ne_nil hflow.signals hf
    · exact absurd ((hwaits hd).symm.trans hended.2) (by simp)
  · intro c
    have hnew := Zstd.idle_new Z ({ turns := turns } : ParserStage)
    obtain ⟨hidle, hwaits, hanswers⟩ := Zstd.run_spec (Zstd.toParser D) hi hnew fun hd => absurd hd Bool.false_ne_true
    have hlink : Link.Resting D (Zstd.parserView Z) c := Zstd.resting_run hi hnew
      (fun hd => absurd hd Bool.false_ne_true) (Zstd.resting_new Z turns)
    refine ⟨detected_of_follows hlink.follows (fun hd => (hidle.done hd).output) fun hended => ?_,
      fun hc => hidle.done (complete_of_mem hlink.follows hc).1⟩
    rcases hanswers (.inr hended.1) with hf | hd
    · exact Component.signals_ne_nil hidle.signals hf
    · exact absurd ((hwaits hd).symm.trans hended.2) (by simp)

/-- A stream that is not empty and whole has at least the size of a metadata header. -/
theorem length_of_whole (h : Whole bytes) (hne : bytes ≠ []) : dbnHeaderSize ≤ bytes.length := by
  obtain ⟨metadata, records, rfl⟩ := h
  cases metadata with
  | some m =>
    have hm := length_metadata m
    rw [List.length_append]
    show dbnHeaderSize ≤ m.bytes.length + _
    omega
  | none =>
    cases records with
    | nil => exact absurd rfl hne
    | cons r records =>
      have hr := r.header_le
      rw [List.flatMap_cons, List.length_append, List.length_append]
      rw [headerSize] at hr
      rw [dbnHeaderSize]
      omega

/-- The stream ends after three bytes of a header, the sink having suspended once. -/
def threeBytes : List Zstd.Input :=
  [.data [.ofBytes [1]], .data [.ofBytes [2, 3]], .done, .resume]

theorem truncation_detected_three :
    let c := Runs.run (Zstd.step (Zstd.answer (Zstd.toParser databentoCpp)))
      (Zstd.newZstdDecompressor (Zstd.canned [1, 2, 3] [68, 66, 78]) { turns := [{ suspends := 1 }] }) threeBytes
    Failed (c.own.next.events c.signals) := by
  intro c
  have h := ((truncation_detected databentoCpp [{ suspends := 1 }]).2 (Zstd.canned [1, 2, 3] [68, 66, 78]) threeBytes
    (by decide)).1
  have hdecoded : c.own.decoded = [68, 66, 78] := by decide +kernel
  refine h.truncated ⟨⟨.done, by simp [threeBytes], rfl⟩, by decide +kernel⟩ fun hw => ?_
  have hwhole : Whole c.own.decoded := hw
  rw [hdecoded] at hwhole
  exact absurd (length_of_whole hwhole (by simp)) (by decide)

end DbnPipe.Truncation
