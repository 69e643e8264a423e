import DbnPipe.Live.StreamConservation
import DbnPipe.Pipeline.ParserLink

/-!
# CramAuth in front of the parser

The live pipeline's two components: `CramAuth` hands its streaming chain to `DbnParserComponent`.

* `toParser` — `OnData` of the parser, as the downstream of `CramAuth`;
* `parserStep` — the inputs of `CramAuth`, with that downstream;
* `running_splicePending`, `running_onBinaryData`, `resting_flushAndComplete` — **the link is kept** by what
  `CramAuth` does with its chains;
* `resting_parserStep` — by every input but a close from outside;
* `run_parserStep` — and so by a run; after `OnDone` there was a terminal signal, or it is deferred.
-/

namespace DbnPipe.Live

open Dbn Link

/-! ### The composition -/

variable (D : Databento)

/-- `OnData` of the parser on the streaming chain, the sink's calls of `Suspend` included. -/
def toParser (c : Component CramAuth) : Component CramAuth :=
  let taken := (c.own.next.hear c.signals).take D c.own.streamingChain
  Component.suspend^[taken.suspends] (consume taken.consumed (update (fun h => { h with next := taken.stage }) c))

/-- One input, in front of the parser; the turns of the other downstream have no part in it. -/
def parserStep (sha256 : List Byte → List Byte) (c : Component CramAuth) : Input → Component CramAuth
  | .data segments _ => arrive sha256 (toParser D) segments c
  | .subscribe p => subscribe p c
  | .startStreaming => startStreaming c
  | .done _ => onDone (toParser D) c
  | .error e => c.propagateError e
  | .suspend => c.suspend
  | .resume _ => if c.suspended then resume (toParser D) c else c
  | .requestClose => c.requestClose
  | .runClose => if c.closeScheduled then doClose c else c

/-- A new component in front of a new parser, the sink's turns given. -/
def beforeParser (apiKey dataset : List Byte) (turns : List SinkTurn) : Component CramAuth :=
  update (fun h => { h with next := { turns := turns } }) (newCramAuth apiKey dataset)

/-- Where `CramAuth` keeps what the link is about. -/
def parserView : View CramAuth where
  consumed := CramAuth.consumed
  chain := CramAuth.streamingChain
  stage := CramAuth.next
  ok h := Chain.WF h.pendingChain

variable {D} {c : Component CramAuth}

/-! ### The stream's invariant -/

/-- The parser's `OnData` keeps what any downstream keeps. -/
theorem keeps_toParser (h : Flowing c) : Keeps c (toParser D c) := by
  have hsuspends : ∀ n (d : Component CramAuth), Flowing d → Keeps d (Component.suspend^[n] d) := by
    intro n
    induction n with
    | zero => exact fun d hd => Keeps.refl hd
    | succ n ih =>
      intro d hd
      have hone := keeps_suspend hd
      exact hone.trans (ih d.suspend hone.flowing)
  have hnext : ∀ next, Keeps c (update (fun h => { h with next := next }) c) := fun next =>
    ⟨⟨⟨held_congr h.toHeld rfl rfl rfl rfl id, h.line, fun hns =>
      ⟨(h.text hns).streaming, (h.text hns).pending, (h.text hns).donePending, (h.text hns).noDone⟩⟩, h.drained⟩,
      id, id, id⟩
  have hconsume : ∀ n next, Keeps c (consume n (update (fun h => { h with next := next }) c)) := fun n next =>
    (hnext next).trans (keeps_consume n (hnext next).flowing)
  exact (hconsume _ _).trans (hsuspends _ _ (hconsume _ _).flowing)

/-- **One input** keeps the stream's invariant. -/
theorem keeps_parserStep (sha256 : List Byte → List Byte) {i : Input} (hi : i.runs = true) (h : Flowing c)
    (hw : Waits c) :
    Flowing (parserStep D sha256 c i) ∧ Waits (parserStep D sha256 c i) ∧
      (Answers c ∨ i.ends = true → Answers (parserStep D sha256 c i)) := by
  have hdeliver : ∀ c : Component CramAuth, c.suspended = false → Flowing c → Keeps c (toParser D c) :=
    fun c _ hc => keeps_toParser hc
  have hof : ∀ {d : Component CramAuth}, Keeps c d → i.ends = false →
      Flowing d ∧ Waits d ∧ (Answers c ∨ i.ends = true → Answers d) := fun hk he =>
    ⟨hk.flowing, hk.waits hw, fun ha => hk.answers (ha.resolve_right (by simp [he]))⟩
  cases i with
  | data segments script => exact hof (keeps_arrive hdeliver sha256 segments h) rfl
  | subscribe p => exact hof (keeps_subscribe p h) rfl
  | startStreaming => exact hof (keeps_startStreaming h) rfl
  | done script =>
    have hans := answered_onDone hdeliver h hw
    exact ⟨hans.flowing, hans.waits, fun _ => hans.answers⟩
  | error e => exact hof (keeps_propagateError e h) rfl
  | suspend => exact hof (keeps_suspend h) rfl
  | resume script =>
    rw [parserStep]
    split
    · rename_i hs
      exact hof (keeps_resume hdeliver h hs) rfl
    · exact hof (Keeps.refl h) rfl
  | requestClose => simp [Input.runs] at hi
  | runClose =>
    rw [parserStep]
    split
    · rename_i hs
      exact hof (keeps_doClose h (h.scheduled (Or.inr hs))) rfl
    · exact hof (Keeps.refl h) rfl

/-! ### The link -/

/-- **The parser's `OnData`** keeps the link. -/
theorem delivered_toParser (h : Running D parserView c) : Delivered D parserView c (toParser D c) := by
  obtain ⟨upstream, heq⟩ := Component.iterate_suspend
    ((c.own.next.hear c.signals).take D c.own.streamingChain).suspends
    (consume ((c.own.next.hear c.signals).take D c.own.streamingChain).consumed
      (update (fun h => { h with next := ((c.own.next.hear c.signals).take D c.own.streamingChain).stage }) c))
  have hto : toParser D c = _ := heq
  rw [hto]
  exact ⟨running_deliver h rfl rfl rfl h.ok (Chain.wf_consumed h.wf _) rfl (Chain.bytes_consumed_min h.wf _) rfl, rfl⟩

/-- What a checked splice behind the streaming chain does to the link. -/
theorem running_toStreaming {source : Chain} (hwf : Chain.WF source) (h : Running D parserView c) :
    Running D parserView (toStreaming source c).1 ∧ Chain.WF (toStreaming source c).2.1 := by
  rw [toStreaming]
  rcases spliceChecked_cases CramAuth.streamingChain (fun chain h => { h with streamingChain := chain })
    source c with ⟨-, hr⟩ | ⟨-, -, hr⟩ | ⟨-, -, hr⟩
  · rw [hr]
    exact ⟨h, hwf⟩
  · rw [hr]
    exact ⟨running_error _ h, hwf⟩
  · obtain ⟨h1, h2, h3, -⟩ := Chain.compactAndSplice_spec h.wf hwf
    rw [hr]
    exact ⟨running_arrive h rfl rfl h.ok rfl h1 h2 rfl, h3⟩

/-- What waits is beside the link. -/
theorem running_pending {chain : Chain} (hwf : Chain.WF chain) (h : Running D parserView c) :
    Running D parserView (update (fun h => { h with pendingChain := chain }) c) :=
  running_beside h rfl rfl hwf rfl rfl rfl

theorem running_toPending {source : Chain} (hwf : Chain.WF source) (h : Running D parserView c) :
    Running D parserView (toPending source c).1 := by
  rw [toPending]
  rcases spliceChecked_cases CramAuth.pendingChain (fun chain h => { h with pendingChain := chain })
    source c with ⟨-, hr⟩ | ⟨-, -, hr⟩ | ⟨-, -, hr⟩
  · rw [hr]
    exact h
  · rw [hr]
    exact running_error _ h
  · rw [hr]
    exact running_pending (Chain.compactAndSplice_spec h.ok hwf).1 h

/-- **The pending chain goes behind the streaming chain.** -/
theorem running_splicePending (h : Running D parserView c) : Running D parserView (splicePending c).1 := by
  obtain ⟨h1, h2⟩ := running_toStreaming h.ok h
  exact running_pending h2 h1

theorem splicePending_donePending (c : Component CramAuth) : (splicePending c).1.donePending = c.donePending := by
  rw [splicePending, toStreaming]
  rcases spliceChecked_cases CramAuth.streamingChain (fun chain h => { h with streamingChain := chain })
    c.own.pendingChain c with ⟨-, hr⟩ | ⟨-, -, hr⟩ | ⟨-, -, hr⟩
  · rw [hr]
    rfl
  · rw [hr]
    exact fail_donePending _ _ c
  · rw [hr]
    rfl

theorem delivered_offer (h : Running D parserView c) : Delivered D parserView c (offer (toParser D) c) := by
  have hoffer : Running D parserView (update (fun h => { h with offers := h.offers + 1 }) (record .offered c)) :=
    running_beside h rfl rfl h.ok rfl rfl rfl
  obtain ⟨h1, h2⟩ := delivered_toParser hoffer
  exact ⟨h1, h2⟩

/-- **Binary bytes.** -/
theorem running_onBinaryData {data : Chain} (hwf : Chain.WF data) (h : Running D parserView c) :
    Running D parserView (onBinaryData (toParser D) data c).1 := by
  rw [onBinaryData]
  split
  · exact running_toPending hwf h
  · have hsplice := running_splicePending h
    rw [forwardBinaryData]
    simp only
    split
    · exact hsplice
    · have hstream := (running_toStreaming hwf hsplice).1
      simp only
      split
      · exact (delivered_offer hstream).running
      · exact hstream

/-- What the handshake changes is beside the link. -/
theorem linked_handshake (f : CramAuth → CramAuth) (hf : streamPart (f c.own) = streamPart c.own)
    (h : Linked D parserView c) : Linked D parserView (update f c) := by
  simp only [streamPart, StreamPart.mk.injEq] at hf
  obtain ⟨hstreaming, hpending, -, hconsumed, -, -, -, hnext⟩ := hf
  refine linked_beside h rfl rfl ?_ hconsumed hstreaming hnext
  show Chain.WF (f c.own).pendingChain
  rw [hpending]
  exact h.ok

/-- `Subscribe` and `StartStreaming` are not guarded. -/
theorem resting_handshake (f : CramAuth → CramAuth) (hf : streamPart (f c.own) = streamPart c.own)
    (h : Resting D parserView c) : Resting D parserView (update f c) :=
  ⟨linked_handshake f hf h.toLinked, h.rests⟩

/-- **`OnData`**, in either phase. -/
theorem resting_onData (sha256 : List Byte → List Byte) {data : Chain} (hwf : Chain.WF data)
    (hline : 10 ∉ c.own.lineBuffer) (h : Resting D parserView c) :
    Resting D parserView (onData (toParser D) sha256 data c).1 := by
  rw [onData]
  cases hopen : c.closed with
  | true => exact h
  | false =>
    have henter : Running D parserView c.enter := running_congr (h.running (.inl hopen)) rfl rfl rfl
    simp only [Bool.false_eq_true, if_false]
    refine resting_leave (Running.resting ?_)
    split
    · exact running_onBinaryData hwf henter
    · have hscan : Running D parserView (scan sha256 (Chain.bytes data) c.enter).1 :=
        scan_keeps sha256 (fun f _ hf hc => ⟨linked_handshake f hf hc.toLinked, hc.noDone⟩)
          (fun _ _ _ => running_error _) henter
      have hloop := textLoop_scan sha256 (toParser D) hwf (Nat.le_refl _) (c := c.enter) hline
      rw [onTextData]
      cases hs : scan sha256 (Chain.bytes data) c.enter with
      | mk c' e =>
        rw [hs] at hscan hloop
        cases e with
        | more =>
          rw [hloop]
          exact hscan
        | overflow =>
          rw [hloop]
          exact hscan
        | streaming rest =>
          obtain ⟨data', hwf', -, hrest⟩ := hloop
          rw [hrest, handleRemainingData]
          split
          · exact hscan
          · exact running_onBinaryData hwf' hscan

/-- What is received is beside the link. -/
theorem resting_receive (bytes : List Byte) (h : Resting D parserView c) : Resting D parserView (receive bytes c) :=
  ⟨linked_beside h.toLinked rfl rfl h.ok rfl rfl rfl, h.rests⟩

theorem resting_arrive (sha256 : List Byte → List Byte) (segments : List Segment) (hline : 10 ∉ c.own.lineBuffer)
    (h : Resting D parserView c) : Resting D parserView (arrive sha256 (toParser D) segments c) :=
  resting_onData sha256 (wf_chainOf segments) hline (resting_receive _ h)

theorem running_processPending (h : Running D parserView c) : Running D parserView (processPending (toParser D) c) := by
  have hsplice := running_splicePending h
  rw [processPending]
  split
  · exact hsplice
  · exact (delivered_forwardData (V := parserView) (fun _ => delivered_offer) hsplice).running

/-- **`FlushAndComplete`.** -/
theorem resting_flushAndComplete (h : Running D parserView c) (hd : c.donePending = false) :
    Resting D parserView (flushAndComplete (toParser D) c) := by
  have hsplice := running_splicePending h
  have hdone : (splicePending c).1.donePending = c.donePending := splicePending_donePending c
  rw [flushAndComplete]
  split
  · exact hsplice.resting
  · exact resting_complete (V := parserView) (fun _ => delivered_offer) hsplice (hdone.trans hd)

/-- **`OnDone`**; a component that is not suspended has deferred none. -/
theorem resting_onDone (hw : Waits c) (h : Resting D parserView c) : Resting D parserView (onDone (toParser D) c) := by
  refine resting_guarded (fun henter => ?_) h
  split
  · exact (running_error _ henter).resting
  · split
    · exact Running.resting (running_congr henter rfl rfl rfl)
    · rename_i hs
      refine resting_flushAndComplete henter ?_
      by_contra hd
      exact hs (hw (Bool.not_eq_false _ ▸ hd))

/-- **One input** keeps the link. -/
theorem resting_parserStep (sha256 : List Byte → List Byte) {i : Input} (hi : i.runs = true) (hflow : Flowing c)
    (hw : Waits c) (h : Resting D parserView c) : Resting D parserView (parserStep D sha256 c i) := by
  cases i with
  | data segments script => exact resting_arrive sha256 segments hflow.line h
  | subscribe p =>
    exact subscribe_preserves (fun f _ hf hc => resting_handshake f hf hc) (fun _ _ _ => resting_error _) p h
  | startStreaming => exact startStreaming_preserves (fun f _ hf hc => resting_handshake f hf hc) h
  | done script => exact resting_onDone hw h
  | error e => exact resting_propagateError e h
  | suspend => exact resting_suspend h
  | resume script =>
    rw [parserStep]
    split
    · exact resting_resume (fun _ => running_processPending) (fun _ => resting_flushAndComplete) h
    · exact h
  | requestClose => simp [Input.runs] at hi
  | runClose =>
    rw [parserStep]
    split
    · rename_i hs
      have hfinalized := hflow.closed.symm.trans (hflow.scheduled (Or.inr hs))
      exact resting_clear h (Component.signals_ne_nil hflow.signals hfinalized) rfl rfl rfl rfl (Chain.wf_cleared _)
        rfl (Chain.wf_cleared _) (Chain.bytes_cleared _) rfl
    · exact h

/-! ### Runs -/

theorem flowing_beforeParser (apiKey dataset : List Byte) (turns : List SinkTurn) :
    Flowing (beforeParser apiKey dataset turns) := by
  have h := flowing_new apiKey dataset
  exact ⟨⟨held_congr h.toHeld rfl rfl rfl rfl id, h.line, fun hns =>
    ⟨(h.text hns).streaming, (h.text hns).pending, (h.text hns).donePending, (h.text hns).noDone⟩⟩, h.drained⟩

theorem resting_beforeParser (apiKey dataset : List Byte) (turns : List SinkTurn) :
    Resting D parserView (beforeParser apiKey dataset turns) := by
  have hnil : Chain.bytes (beforeParser apiKey dataset turns).own.streamingChain = [] := BufferChain.bytes_nil id none
  refine ⟨⟨Chain.wf_empty none, Chain.wf_empty none, ?_, fun _ => rfl⟩, fun hd => absurd hd List.not_mem_nil⟩
  show Follows D [] (Chain.bytes (beforeParser apiKey dataset turns).own.streamingChain) [] _
  rw [hnil]
  exact Follows.new turns

/-- **A run** keeps the link, and answers an `OnDone` or defers it. -/
theorem run_parserStep (sha256 : List Byte → List Byte) {inputs : List Input} (hi : ∀ i ∈ inputs, i.runs = true)
    (hflow : Flowing c) (hw : Waits c) (h : Resting D parserView c) :
    let d := Runs.run (parserStep D sha256) c inputs
    Flowing d ∧ Waits d ∧ Resting D parserView d ∧ ((Answers c ∨ ∃ i ∈ inputs, i.ends = true) → Answers d) := by
  induction inputs generalizing c with
  | nil => exact ⟨hflow, hw, h, fun ha => ha.resolve_right (by simp)⟩
  | cons i inputs ih =>
    have hi' := hi i List.mem_cons_self
    obtain ⟨h1, h2, h3⟩ := keeps_parserStep (D := D) sha256 hi' hflow hw
    obtain ⟨h4, h5, h6, h7⟩ := ih (fun j hj => hi j (List.mem_cons_of_mem _ hj)) h1 h2
      (resting_parserStep sha256 hi' hflow hw h)
    refine ⟨h4, h5, h6, fun ha => h7 ?_⟩
    rcases ha with ha | ⟨j, hj, he⟩
    · exact .inl (h3 (.inl ha))
    · rcases List.mem_cons.mp hj with rfl | hj
      · exact .inl (h3 (.inr he))
      · exact .inr ⟨j, hj, he⟩

end DbnPipe.Live
