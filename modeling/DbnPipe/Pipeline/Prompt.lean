import DbnPipe.Dbn.ParseErrors
import DbnPipe.Pipeline.Truncation

/-!
# Prompt delivery

What is behind a component that is linked to the parser is told at once: the parser is called with the chain as
soon as bytes have arrived in it, and takes off all that is complete.

* `Looked` — the parser has looked at all of the chain, or has failed on it; `Looked.take` — **an `OnData` looks
  at all of it**;
* `Link.Seen`, `Link.Behind` — the same of a component, and of one in whose chain bytes have arrived since;
* `Live.seen_parserStep`, `Zstd.seen_step` — one input keeps `Seen`, in both compositions;
* `UpToDate` — what the sink has then been told of the bytes so far;
* `delivered_promptly` — the theorem, for every run.
-/

namespace DbnPipe.Dbn

open Layout Framing Chain

/-! ### What the parser has looked at -/

/-- The parser has looked at all of the chain, or has failed on it. -/
inductive Looked (D : Databento) (consumed held : List Byte) (t : ParserStage) : Prop
  | live {p : Progress Byte Byte String} {items : List (List Byte)}
      (tracks : ∃ chain, Tracks t.parser chain p) (sent : Sent D t.parser items) (error : p.error = none)
      (fed : feed metadataPreamble recordFramer .start (consumed ++ held) = (items, p)) (buffer : p.buffer = held)
      (heard : t.heard = 0)
  | failed (finalized : t.parser.finalized = true)
      (fed : (feed metadataPreamble recordFramer .start (consumed ++ held)).2.error ≠ none)

variable {D : Databento} {consumed held x : List Byte} {t : ParserStage}

theorem Looked.new (turns : List SinkTurn) : Looked D [] [] { turns := turns } :=
  .live (p := .start) ⟨_, newParser_tracks none⟩ (newParser_sent D none) rfl start_settled rfl rfl

/-- Without a signal there is nothing to hear. -/
theorem Looked.hear (h : Looked D consumed held t) : Looked D consumed held (t.hear []) := by
  cases h with
  | live tracks sent error fed buffer heard =>
    rw [hear_nil heard]
    exact .live tracks sent error fed buffer heard
  | failed finalized fed =>
    refine .failed ?_ fed
    rw [hear_of_finalized finalized]
    exact finalized

/-- An error stays. -/
theorem feed_error_append (h : (feed metadataPreamble recordFramer .start consumed).2.error ≠ none) (x : List Byte) :
    (feed metadataPreamble recordFramer .start (consumed ++ x)).2.error ≠ none := by
  rw [feed_append, feed_error metadataPreamble recordFramer h]
  exact h

/-- **An `OnData` looks at all of the chain**, whatever has arrived in it. -/
theorem Looked.take {chain : Chain} (h : Looked D consumed held t) (hwf : WF chain) (hbytes : bytes chain = held ++ x) :
    Looked D (consumed ++ (bytes chain).take (t.take D chain).consumed)
      ((bytes chain).drop (t.take D chain).consumed) (t.take D chain).stage := by
  have hall : consumed ++ (bytes chain).take (t.take D chain).consumed ++
      (bytes chain).drop (t.take D chain).consumed = consumed ++ held ++ x := by
    rw [List.append_assoc, List.take_append_drop, hbytes, List.append_assoc]
  cases h with
  | failed finalized fed =>
    refine .failed ?_ ?_
    · rw [take_of_finalized finalized]
      exact finalized
    · rw [hall]
      exact feed_error_append fed x
  | live tracks sent error fed buffer heard =>
    rename_i p items
    have hin : bytes chain = p.buffer ++ x := by rw [buffer]; exact hbytes
    obtain ⟨rest, hout, -, hdrop, hok, -⟩ := take_spec (D := D) tracks hwf hin
    have hq := feed_append metadataPreamble recordFramer .start (consumed ++ held) x
    rw [fed, ← hall] at hq
    cases he : (feed metadataPreamble recordFramer p x).2.error with
    | none =>
      refine .live ⟨_, hout⟩ (hok he items sent) he hq ?_ heard
      rw [hdrop]
      exact hout.buffer.symm
    | some msg =>
      refine .failed (hout.finalized.trans (by rw [he]; rfl)) ?_
      rw [hq, he]
      simp

/-! ### What the sink has been told -/

/-- The sink has been told all there is in `bytes`: of a well-formed stream every complete record, and that a
stream is malformed. -/
structure UpToDate (D : Databento) (bytes : List Byte) (events : List SinkEvent) : Prop where
  records : ∀ s : DbnStream, bytes = s.bytes → ∃ batches : List (List RecordRef), events = batches.map .data ∧
    List.Forall₂ (Delivers D s.version) (s.records.map Record.bytes) batches.flatten
  malformed : ∀ s : MalformedStream, bytes = s.bytes → Failed events
  oversized : bytes.take 3 = magic → dbnHeaderSize ≤ bytes.length → kMaxMetadataSize < frameSize bytes → Failed events

/-- What a well-formed stream is framed to. -/
theorem feed_dbnStream (s : DbnStream) : ∃ phase : Option Byte,
    feed metadataPreamble recordFramer .start s.bytes = (s.records.map Record.bytes, ⟨phase, s.tail, none⟩) ∧
      (phase = some s.version ∨ s.records = []) := by
  obtain ⟨phase, hfeed, hphase⟩ := feed_stream s.metadata s.records s.tail (Or.inr s.version_le) s.unmarked
  obtain ⟨part, hpart, hne⟩ := s.tail_part
  have hdrain : drain (recordFramer (versionOf s.metadata)) s.tail = ⟨[], s.tail, none⟩ :=
    drain_more _ (lookRecord_part part hpart hne _)
  rw [hdrain, List.append_nil] at hfeed
  exact ⟨phase, hfeed, hphase.imp_right And.left⟩

/-- A malformed stream is an error of the framing parser. -/
theorem feed_malformedStream (s : MalformedStream) :
    (feed metadataPreamble recordFramer .start s.bytes).2.error ≠ none := by
  intro h
  have hlt := (s.error_none_iff (List.append_nil s.bytes)).mp h
  rw [MalformedStream.bytes, List.length_append, List.length_append] at hlt
  omega

theorem feed_oversized {bytes : List Byte} (hmagic : bytes.take 3 = magic) (hlen : dbnHeaderSize ≤ bytes.length)
    (hmax : kMaxMetadataSize < frameSize bytes) :
    (feed metadataPreamble recordFramer .start bytes).2.error ≠ none := by
  have hlook : metadataPreamble.look ([] ++ bytes) =
      .bad ("Invalid DBN metadata frame size: " ++ toString (frameSize bytes)) := by
    show lookMetadata bytes = _
    rw [lookMetadata, if_neg (Nat.not_lt.mpr hlen), if_neg (not_not.mpr hmagic), if_pos hmax]
  simp only [feed, Progress.start, hlook]
  simp

/-- **A parser that has looked at all of the chain** has told the sink all there is. -/
theorem upToDate_of_looked (hl : Looked D consumed held t) (hf : Follows D consumed held [] t) :
    UpToDate D (consumed ++ held) (t.events []) := by
  have hfails : (feed metadataPreamble recordFramer .start (consumed ++ held)).2.error ≠ none →
      Failed (t.events []) := by
    intro herror
    cases hl with
    | live tracks sent error fed buffer heard =>
      rw [fed] at herror
      exact absurd error herror
    | failed finalized fed =>
      rw [ParserStage.events, hear_of_finalized finalized]
      cases hf with
      | live tracks sent error =>
        obtain ⟨_, htracks⟩ := tracks
        rw [htracks.finalized, error] at finalized
        exact absurd finalized (by simp)
      | failed finalized events => exact events
      | completed done => exact absurd done List.not_mem_nil
  refine ⟨fun s hs => ?_, fun s hs => hfails ?_, fun h1 h2 h3 => hfails (feed_oversized h1 h2 h3)⟩
  · obtain ⟨phase, hfeed, hphase⟩ := feed_dbnStream s
    cases hl with
    | failed finalized fed =>
      rw [hs, hfeed] at fed
      exact absurd rfl fed
    | live tracks sent error fed buffer heard =>
      obtain ⟨_, htracks⟩ := tracks
      obtain ⟨batches, hbatches, hdelivers⟩ := sent.batches
      rw [hs, hfeed] at fed
      obtain ⟨rfl, rfl⟩ := Prod.mk.inj fed
      rw [ParserStage.events, hear_nil heard]
      refine ⟨batches, hbatches, ?_⟩
      rcases hphase with hp | hrs
      · rw [version_of_phase htracks hp] at hdelivers
        exact hdelivers
      · rw [hrs] at hdelivers ⊢
        rw [List.forall₂_nil_left_iff.mp hdelivers]
        exact .nil
  · rw [hs]
    exact feed_malformedStream s

end DbnPipe.Dbn

namespace DbnPipe.Link

open Dbn

/-! ### A component and its parser -/

variable {σ : Type} {D : Databento} {V : View σ} {c d : Component σ}

/-- The parser has looked at all of the chain of a component that gave no signal. -/
def Seen (D : Databento) (V : View σ) (c : Component σ) : Prop :=
  c.finalized = false → Looked D (V.consumed c.own) (Chain.bytes (V.chain c.own)) (V.stage c.own)

/-- Bytes may have arrived in the chain since. -/
def Behind (D : Databento) (V : View σ) (c : Component σ) : Prop :=
  c.finalized = false → ∃ held x, Chain.bytes (V.chain c.own) = held ++ x ∧
    Looked D (V.consumed c.own) held (V.stage c.own)

theorem Seen.behind (h : Seen D V c) : Behind D V c := fun hf => ⟨_, [], (List.append_nil _).symm, h hf⟩

/-- An empty chain holds nothing to look at. -/
theorem Behind.seen (h : Behind D V c) (hempty : Chain.bytes (V.chain c.own) = []) : Seen D V c := by
  intro hf
  obtain ⟨held, x, hbytes, hlooked⟩ := h hf
  rw [hempty] at hbytes ⊢
  rw [(List.append_eq_nil_iff.mp hbytes.symm).1] at hlooked
  exact hlooked

theorem seen_of_finalized (h : c.finalized = true) : Seen D V c := fun hf => absurd (h.symm.trans hf) (by simp)

/-- What is beside the link. -/
theorem seen_beside (h : Seen D V c) (hfinalized : d.finalized = c.finalized)
    (hconsumed : V.consumed d.own = V.consumed c.own) (hchain : V.chain d.own = V.chain c.own)
    (hstage : V.stage d.own = V.stage c.own) : Seen D V d := by
  intro hf
  rw [hconsumed, hchain, hstage]
  exact h (hfinalized.symm.trans hf)

theorem seen_congr (h : Seen D V c) (hown : d.own = c.own) (hfinalized : d.finalized = c.finalized) : Seen D V d :=
  seen_beside h hfinalized (by rw [hown]) (by rw [hown]) (by rw [hown])

theorem behind_beside (h : Behind D V c) (hfinalized : d.finalized = c.finalized)
    (hconsumed : V.consumed d.own = V.consumed c.own) (hchain : V.chain d.own = V.chain c.own)
    (hstage : V.stage d.own = V.stage c.own) : Behind D V d := by
  intro hf
  rw [hconsumed, hchain, hstage]
  exact h (hfinalized.symm.trans hf)

/-- New bytes arrive in the chain. -/
theorem behind_arrive {y : List Byte} (h : Behind D V c) (hfinalized : d.finalized = c.finalized)
    (hconsumed : V.consumed d.own = V.consumed c.own)
    (hbytes : Chain.bytes (V.chain d.own) = Chain.bytes (V.chain c.own) ++ y)
    (hstage : V.stage d.own = V.stage c.own) : Behind D V d := by
  intro hf
  obtain ⟨held, x, hx, hlooked⟩ := h (hfinalized.symm.trans hf)
  refine ⟨held, x ++ y, ?_, ?_⟩
  · rw [hbytes, hx, List.append_assoc]
  · rw [hconsumed, hstage]
    exact hlooked

/-- An error ends the stream. -/
theorem seen_error (e : Error) : Seen D V (c.emitError e).requestClose := seen_of_finalized (c.failed e).finalized

/-- So does `OnDone`. -/
theorem seen_done : Seen D V c.emitDone.requestClose := by
  obtain ⟨_, _, _, h⟩ := c.emitDone.requestClose_eq
  apply seen_of_finalized
  rw [h]
  exact c.emitDone_finalized

/-- **An `OnData` of the parser** on all of the chain. -/
theorem seen_deliver (hr : Running D V c) (h : Behind D V c) {taken : ParserStage.Taken}
    (htaken : taken = ((V.stage c.own).hear c.signals).take D (V.chain c.own)) (hfinalized : d.finalized = c.finalized)
    (hconsumed : V.consumed d.own = V.consumed c.own ++ (Chain.bytes (V.chain c.own)).take taken.consumed)
    (hbytes : Chain.bytes (V.chain d.own) = (Chain.bytes (V.chain c.own)).drop taken.consumed)
    (hstage : V.stage d.own = taken.stage) : Seen D V d := by
  intro hf
  have hopen : c.finalized = false := hfinalized.symm.trans hf
  obtain ⟨held, x, hx, hlooked⟩ := h hopen
  rw [hr.fresh hopen] at htaken
  rw [hconsumed, hbytes, hstage, htaken]
  exact hlooked.hear.take hr.wf hx

theorem seen_leave (h : Seen D V c) : Seen D V c.leave := seen_congr h c.leave_own c.leave_finalized

theorem seen_suspend (h : Seen D V c) : Seen D V c.suspend := by
  rw [Component.suspend]
  split <;> exact seen_congr h rfl rfl

section Calls

variable {deliver processPending flushAndComplete : Component σ → Component σ}

/-- **`ForwardData`** offers whatever there is. -/
theorem seen_forwardData (hdeliver : ∀ c, Running D V c → Behind D V c → Seen D V (deliver c)) (hr : Running D V c)
    (h : Behind D V c) : Seen D V (c.forwardData V.chain deliver).1 := by
  rw [Component.forwardData]
  split
  · rename_i he
    exact h.seen ((Chain.empty_iff hr.wf).mp he)
  · exact hdeliver c hr h

/-- **`CompleteWithFlush` and closing.** -/
theorem seen_complete (hdeliver : ∀ c, Running D V c → Behind D V c → Seen D V (deliver c)) (hr : Running D V c)
    (h : Behind D V c) :
    Seen D V (if (c.completeWithFlush V.chain deliver).2 then (c.completeWithFlush V.chain deliver).1.requestClose
      else (c.completeWithFlush V.chain deliver).1) := by
  simp only [Component.completeWithFlush, Component.flushPendingData]
  cases he : (V.chain c.own).empty with
  | true => exact seen_done
  | false =>
    have hd := hdeliver c hr h
    simp only [Bool.false_eq_true, if_false]
    cases hs : (deliver c).suspended with
    | true => exact seen_congr hd rfl rfl
    | false =>
      cases hde : (V.chain (deliver c).own).empty with
      | true => exact seen_done
      | false => exact seen_error _

/-- The deferred `OnDone` at the end of a `Resume`. -/
theorem seen_completeDeferred
    (hflush : ∀ c, Running D V c → Seen D V c → Seen D V (flushAndComplete c)) (hr : Resting D V c) (h : Seen D V c) :
    Seen D V (c.completeDeferred flushAndComplete) := by
  rw [Component.completeDeferred]
  split
  · rename_i hcond
    exact hflush _ (running_congr (hr.running (.inr hcond.1)) rfl rfl rfl) (seen_congr h rfl rfl)
  · exact h

/-- **`Resume`.** -/
theorem seen_resume (hrunning : ∀ c, Running D V c → Running D V (processPending c))
    (hprocess : ∀ c, Running D V c → Seen D V c → Seen D V (processPending c))
    (hflush : ∀ c, Running D V c → Seen D V c → Seen D V (flushAndComplete c)) (hr : Resting D V c) (h : Seen D V c) :
    Seen D V (c.resume processPending flushAndComplete) := by
  by_cases hone : c.suspendCount = 1
  · cases hclosed : c.closed with
    | true =>
      rw [Component.resume_of_closed hone hclosed]
      exact seen_completeDeferred hflush (resting_congr hr rfl rfl rfl rfl rfl) (seen_congr h rfl rfl)
    | false =>
      rw [Component.resume_of_eq hone hclosed]
      have hresumed : Running D V c.resumed := running_congr (hr.running (.inl hclosed)) rfl rfl rfl
      have hp := hprocess c.resumed hresumed (seen_congr h rfl rfl)
      have hpr := hrunning c.resumed hresumed
      have hup : Running D V (processPending c.resumed).resumeUpstream ∧
          Seen D V (processPending c.resumed).resumeUpstream := by
        rw [Component.resumeUpstream]
        split
        · exact ⟨hpr, hp⟩
        · exact ⟨running_congr hpr rfl rfl rfl, seen_congr hp rfl rfl⟩
      exact seen_leave (seen_completeDeferred hflush hup.1.resting hup.2)
  · rw [Component.resume_of_ne hone]
    exact seen_congr h rfl rfl

/-- A guarded call. -/
theorem seen_guarded {body : Component σ → Component σ}
    (hbody : Running D V c.enter → Seen D V c.enter → Seen D V (body c.enter)) (hr : Resting D V c) (h : Seen D V c) :
    Seen D V (c.guarded body) := by
  rw [Component.guarded]
  cases hclosed : c.closed with
  | true => exact h
  | false =>
    exact seen_leave (hbody (running_congr (hr.running (.inl hclosed)) rfl rfl rfl) (seen_congr h rfl rfl))

/-- `OnError`. -/
theorem seen_propagateError (e : Error) (hr : Resting D V c) (h : Seen D V c) : Seen D V (c.propagateError e) :=
  seen_guarded (fun _ _ => seen_error e) hr h

end Calls

end DbnPipe.Link

namespace DbnPipe.Live

open Dbn Link

/-! ### CramAuth -/

variable {D : Databento} {c : Component CramAuth}

theorem seen_toParser (hr : Running D parserView c) (h : Behind D parserView c) : Seen D parserView (toParser D c) := by
  obtain ⟨upstream, heq⟩ := Component.iterate_suspend
    ((c.own.next.hear c.signals).take D c.own.streamingChain).suspends
    (consume ((c.own.next.hear c.signals).take D c.own.streamingChain).consumed
      (update (fun h => { h with next := ((c.own.next.hear c.signals).take D c.own.streamingChain).stage }) c))
  have hto : toParser D c = _ := heq
  rw [hto]
  exact seen_deliver hr h rfl rfl rfl (Chain.bytes_consumed_min hr.wf _) rfl

theorem seen_offer (hr : Running D parserView c) (h : Behind D parserView c) :
    Seen D parserView (offer (toParser D) c) :=
  seen_toParser (running_beside hr rfl rfl hr.ok rfl rfl rfl) (behind_beside h rfl rfl rfl rfl)

/-- What a checked splice reports, or what arrives. -/
theorem behind_toStreaming {source : Chain} (hwf : Chain.WF source) (hr : Running D parserView c)
    (h : Behind D parserView c) :
    Behind D parserView (toStreaming source c).1 ∧
      ((toStreaming source c).2.2 = false → (toStreaming source c).1.finalized = true) := by
  rw [toStreaming]
  rcases spliceChecked_cases CramAuth.streamingChain (fun chain h => { h with streamingChain := chain })
    source c with ⟨-, hs⟩ | ⟨-, -, hs⟩ | ⟨-, -, hs⟩
  · rw [hs]
    exact ⟨h, fun hf => absurd hf (by simp)⟩
  · rw [hs]
    exact ⟨(seen_error _).behind, fun _ => fail_finalized _ _ _⟩
  · obtain ⟨-, h2, -, -⟩ := Chain.compactAndSplice_spec hr.wf hwf
    rw [hs]
    exact ⟨behind_arrive h rfl rfl h2 rfl, fun hf => absurd hf (by simp)⟩

/-- **The pending chain goes behind the streaming chain.** -/
theorem behind_splicePending (hr : Running D parserView c) (h : Behind D parserView c) :
    Behind D parserView (splicePending c).1 ∧ ((splicePending c).2 = false → (splicePending c).1.finalized = true) := by
  obtain ⟨h1, h2⟩ := behind_toStreaming hr.ok hr h
  exact ⟨behind_beside h1 rfl rfl rfl rfl, h2⟩

/-- What waits is not looked at. -/
theorem seen_toPending (source : Chain) (h : Seen D parserView c) : Seen D parserView (toPending source c).1 := by
  rw [toPending]
  rcases spliceChecked_cases CramAuth.pendingChain (fun chain h => { h with pendingChain := chain })
    source c with ⟨-, hs⟩ | ⟨-, -, hs⟩ | ⟨-, -, hs⟩
  · rw [hs]
    exact h
  · rw [hs]
    exact seen_error _
  · rw [hs]
    exact seen_beside h rfl rfl rfl rfl

/-- **Binary bytes** are offered as they come. -/
theorem seen_onBinaryData {data : Chain} (hwf : Chain.WF data) (hr : Running D parserView c)
    (h : Seen D parserView c) : Seen D parserView (onBinaryData (toParser D) data c).1 := by
  rw [onBinaryData]
  split
  · exact seen_toPending data h
  · have hsplice := running_splicePending hr
    obtain ⟨h1, hfails⟩ := behind_splicePending hr h.behind
    rw [forwardBinaryData]
    simp only
    split
    · rename_i hf
      exact seen_of_finalized (hfails (by simpa using hf))
    · obtain ⟨h2, hfails'⟩ := behind_toStreaming hwf hsplice h1
      simp only
      split
      · exact seen_offer (running_toStreaming hwf hsplice).1 h2
      · rename_i hf
        exact seen_of_finalized (hfails' (by simpa using hf))

/-- What the handshake changes is beside the link. -/
theorem seen_handshake (f : CramAuth → CramAuth) (hf : streamPart (f c.own) = streamPart c.own)
    (h : Seen D parserView c) : Seen D parserView (update f c) := by
  simp only [streamPart, StreamPart.mk.injEq] at hf
  obtain ⟨hstreaming, -, -, hconsumed, -, -, -, hnext⟩ := hf
  exact seen_beside h rfl hconsumed hstreaming hnext

/-- **`OnData`**, in either phase. -/
theorem seen_onData (sha256 : List Byte → List Byte) {data : Chain} (hwf : Chain.WF data)
    (hline : 10 ∉ c.own.lineBuffer) (hr : Resting D parserView c) (h : Seen D parserView c) :
    Seen D parserView (onData (toParser D) sha256 data c).1 := by
  rw [onData]
  cases hopen : c.closed with
  | true => exact h
  | false =>
    have henter : Running D parserView c.enter := running_congr (hr.running (.inl hopen)) rfl rfl rfl
    have hseen : Seen D parserView c.enter := seen_congr h rfl rfl
    simp only [Bool.false_eq_true, if_false]
    apply seen_leave
    split
    · exact seen_onBinaryData hwf henter hseen
    · have hscan : Running D parserView (scan sha256 (Chain.bytes data) c.enter).1 ∧
          Seen D parserView (scan sha256 (Chain.bytes data) c.enter).1 :=
        scan_keeps sha256 (P := fun c => Running D parserView c ∧ Seen D parserView c)
          (fun f _ hf hc => ⟨⟨linked_handshake f hf hc.1.toLinked, hc.1.noDone⟩, seen_handshake f hf hc.2⟩)
          (fun _ _ _ hc => ⟨running_error _ hc.1, seen_error _⟩) ⟨henter, hseen⟩
      have hloop := textLoop_scan sha256 (toParser D) hwf (Nat.le_refl _) (c := c.enter) hline
      rw [onTextData]
      cases hs : scan sha256 (Chain.bytes data) c.enter with
      | mk c' e =>
        rw [hs] at hscan hloop
        cases e with
        | more =>
          rw [hloop]
          exact hscan.2
        | overflow =>
          rw [hloop]
          exact hscan.2
        | streaming rest =>
          obtain ⟨data', hwf', -, hrest⟩ := hloop
          rw [hrest, handleRemainingData]
          split
          · exact hscan.2
          · exact seen_onBinaryData hwf' hscan.1 hscan.2

theorem seen_arrive (sha256 : List Byte → List Byte) (segments : List Segment) (hline : 10 ∉ c.own.lineBuffer)
    (hr : Resting D parserView c) (h : Seen D parserView c) :
    Seen D parserView (arrive sha256 (toParser D) segments c) :=
  seen_onData sha256 (wf_chainOf segments) hline (resting_receive _ hr) (seen_beside h rfl rfl rfl rfl)

theorem seen_processPending (hr : Running D parserView c) (h : Seen D parserView c) :
    Seen D parserView (processPending (toParser D) c) := by
  obtain ⟨h1, hfails⟩ := behind_splicePending hr h.behind
  rw [processPending]
  split
  · rename_i hf
    exact seen_of_finalized (hfails (by simpa using hf))
  · exact seen_forwardData (V := parserView) (fun _ => seen_offer) (running_splicePending hr) h1

/-- **`FlushAndComplete`.** -/
theorem seen_flushAndComplete (hr : Running D parserView c) (h : Seen D parserView c) :
    Seen D parserView (flushAndComplete (toParser D) c) := by
  obtain ⟨h1, hfails⟩ := behind_splicePending hr h.behind
  rw [flushAndComplete]
  split
  · rename_i hf
    exact seen_of_finalized (hfails (by simpa using hf))
  · exact seen_complete (V := parserView) (fun _ => seen_offer) (running_splicePending hr) h1

/-- **`OnDone`.** -/
theorem seen_onDone (hr : Resting D parserView c) (h : Seen D parserView c) :
    Seen D parserView (onDone (toParser D) c) := by
  refine seen_guarded (fun hrunning hseen => ?_) hr h
  split
  · exact seen_error _
  · split
    · exact seen_congr hseen rfl rfl
    · exact seen_flushAndComplete hrunning hseen

/-- **One input.** -/
theorem seen_parserStep (sha256 : List Byte → List Byte) {i : Input} (hi : i.runs = true) (hflow : Flowing c)
    (hr : Resting D parserView c) (h : Seen D parserView c) : Seen D parserView (parserStep D sha256 c i) := by
  cases i with
  | data segments script => exact seen_arrive sha256 segments hflow.line hr h
  | subscribe p => exact subscribe_preserves (fun f _ hf hc => seen_handshake f hf hc) (fun _ _ _ _ => seen_error _) p h
  | startStreaming => exact startStreaming_preserves (fun f _ hf hc => seen_handshake f hf hc) h
  | done script => exact seen_onDone hr h
  | error e => exact seen_propagateError e hr h
  | suspend => exact seen_suspend h
  | resume script =>
    rw [parserStep]
    split
    · exact seen_resume (fun _ => running_processPending) (fun _ => seen_processPending)
        (fun _ => seen_flushAndComplete) hr h
    · exact h
  | requestClose => simp [Input.runs] at hi
  | runClose =>
    rw [parserStep]
    split
    · rename_i hs
      exact seen_of_finalized (hflow.closed.symm.trans (hflow.scheduled (Or.inr hs)))
    · exact h

/-- **A run** in front of the parser. -/
theorem seen_run (sha256 : List Byte → List Byte) {inputs : List Input} (hi : ∀ i ∈ inputs, i.runs = true)
    (hflow : Flowing c) (hw : Waits c) (hr : Resting D parserView c) (h : Seen D parserView c) :
    Seen D parserView (Runs.run (parserStep D sha256) c inputs) := by
  induction inputs generalizing c with
  | nil => exact h
  | cons i inputs ih =>
    have hi' := hi i List.mem_cons_self
    obtain ⟨h1, h2, -⟩ := keeps_parserStep (D := D) sha256 hi' hflow hw
    exact ih (fun j hj => hi j (List.mem_cons_of_mem _ hj)) h1 h2 (resting_parserStep sha256 hi' hflow hw hr)
      (seen_parserStep sha256 hi' hflow hr h)

theorem seen_beforeParser (apiKey dataset : List Byte) (turns : List SinkTurn) :
    Seen D parserView (beforeParser apiKey dataset turns) := by
  have hnil : Chain.bytes (beforeParser apiKey dataset turns).own.streamingChain = [] := BufferChain.bytes_nil id none
  intro _
  show Looked D [] (Chain.bytes (beforeParser apiKey dataset turns).own.streamingChain) _
  rw [hnil]
  exact Looked.new turns

end DbnPipe.Live

namespace DbnPipe.Zstd

open Dbn Link

/-! ### ZstdDecompressor -/

variable {D : Databento} {Z : ZstdDecoder} {c : Component (ZstdDecompressor Z ParserStage)}

theorem seen_answer (hr : Running D (parserView Z) c) (h : Behind D (parserView Z) c) :
    Seen D (parserView Z) (answer (toParser D) c) := by
  obtain ⟨upstream, heq⟩ := suspendTimes_eq (toParser D c).suspends
    (consume (toParser D c).consume (update (fun h => { h with next := (toParser D c).state }) c))
  have hanswer : answer (toParser D) c = _ := heq
  rw [hanswer]
  exact seen_deliver hr h rfl rfl rfl (Chain.bytes_consumed_min hr.wf _) rfl

/-- An update beside the link. -/
theorem seen_update (f : ZstdDecompressor Z ParserStage → ZstdDecompressor Z ParserStage)
    (hconsumed : (f c.own).consumed = c.own.consumed) (hchain : (f c.own).outputChain = c.own.outputChain)
    (hnext : (f c.own).next = c.own.next) (h : Seen D (parserView Z) c) : Seen D (parserView Z) (update f c) :=
  seen_beside h rfl hconsumed hchain hnext

theorem behind_appendOutput {input : List Byte} (t : Decoded Z.State input Segment.kSize)
    (hr : Running D (parserView Z) c) (h : Seen D (parserView Z) c) :
    Behind D (parserView Z) (appendOutput t c) :=
  behind_arrive h.behind rfl rfl (Chain.bytes_appended hr.wf _) rfl

/-- **The loop over a chunk** offers each piece of output as it is written. -/
theorem seen_chunkLoop (chunk : List Byte) (fuel pos : ℕ) (hr : Running D (parserView Z) c)
    (h : Seen D (parserView Z) c) : Seen D (parserView Z) (chunkLoop (answer (toParser D)) chunk fuel pos c).1 := by
  induction fuel generalizing pos c with
  | zero => exact h
  | succ fuel ih =>
    have hcall : Running D (parserView Z) (recordCall c) := (delivered_update _ rfl rfl rfl hr).running
    have hseen : Seen D (parserView Z) (recordCall c) := seen_update _ rfl rfl rfl h
    rw [chunkLoop]
    split
    · exact h
    split
    · exact h
    simp only
    split
    · exact seen_error _
    rename_i t _
    have habsorb : Running D (parserView Z) (absorb t (recordCall c)) :=
      (delivered_update _ rfl rfl rfl hcall).running
    have hseen' : Seen D (parserView Z) (absorb t (recordCall c)) := seen_update _ rfl rfl rfl hseen
    split
    · exact ih _ habsorb hseen'
    split
    · exact seen_error _
    · have hout := (delivered_appendOutput t habsorb).running
      have hbehind := behind_appendOutput t habsorb hseen'
      have hforward := (delivered_forwardData (V := parserView Z) (fun _ => delivered_answer) hout).running
      have hseen'' := seen_forwardData (V := parserView Z) (fun _ => seen_answer) hout hbehind
      split
      · exact hseen''
      · exact ih _ hforward hseen''

theorem seen_consumeSource (src : Source) (n : ℕ) (h : Seen D (parserView Z) c) :
    Seen D (parserView Z) (consumeSource src n c) := by
  cases src <;> exact seen_update _ rfl rfl rfl h

/-- **The loop over a chain.** -/
theorem seen_chainLoop (src : Source) (fuel : ℕ) (hr : Running D (parserView Z) c) (h : Seen D (parserView Z) c) :
    Seen D (parserView Z) (chainLoop (answer (toParser D)) src fuel c).1 := by
  induction fuel generalizing c with
  | zero => exact h
  | succ fuel ih =>
    rw [chainLoop]
    split
    · exact h
    split
    · exact h
    rename_i s pos _
    have hchunk := (delivered_chunkLoop
      ((s.bytes.drop pos).take ((src.get c.own).contiguousSize id)) (chunkFuel c.own
        ((s.bytes.drop pos).take ((src.get c.own).contiguousSize id))) 0 hr).running
    have hseen := seen_chunkLoop
      ((s.bytes.drop pos).take ((src.get c.own).contiguousSize id)) (chunkFuel c.own
        ((s.bytes.drop pos).take ((src.get c.own).contiguousSize id))) 0 hr h
    simp only
    split
    · exact ih (delivered_consumeSource src _ hchunk).running (seen_consumeSource src _ hseen)
    · exact seen_consumeSource src _ hseen
    · exact hseen

theorem seen_decompressChain (src : Source) (hr : Running D (parserView Z) c) (h : Seen D (parserView Z) c) :
    Seen D (parserView Z) (decompressChain (answer (toParser D)) src c).1 := by
  rw [decompressChain]
  split
  · exact seen_error _
  split
  · exact h
  · exact seen_chainLoop src _ hr h

theorem seen_copyToPendingInput (fuel : ℕ) (h : Seen D (parserView Z) c) :
    Seen D (parserView Z) (copyToPendingInput fuel c) := by
  induction fuel generalizing c with
  | zero => exact h
  | succ fuel ih =>
    rw [copyToPendingInput]
    split
    · exact h
    split
    · exact seen_error _
    · exact ih (seen_consumeSource .input _ (seen_update
        (fun h => { h with pendingInput := BufferChain.append id h.pendingInput _ }) rfl rfl rfl h))

/-- `OnData` under its guard. -/
theorem seen_dataBody (hr : Running D (parserView Z) c) (h : Seen D (parserView Z) c) :
    Seen D (parserView Z) (dataBody (answer (toParser D)) c) := by
  rw [dataBody]
  split
  · split
    · exact seen_error _
    · have hsplice : Running D (parserView Z) (spliceInput c) := (delivered_update _ rfl rfl rfl hr).running
      exact seen_decompressChain .pending hsplice (seen_update _ rfl rfl rfl h)
  · have hchain := seen_decompressChain .input hr h
    simp only
    split
    · exact hchain
    split
    · exact seen_copyToPendingInput _ hchain
    · exact hchain

theorem seen_processPendingData (hr : Running D (parserView Z) c) (h : Seen D (parserView Z) c) :
    Seen D (parserView Z) (processPendingData (answer (toParser D)) c).1 := by
  rw [processPendingData]
  split
  · exact h
  · exact seen_decompressChain .pending hr h

theorem seen_processPending (hr : Running D (parserView Z) c) (h : Seen D (parserView Z) c) :
    Seen D (parserView Z) (processPending (answer (toParser D)) c) := by
  have hforward := (delivered_forwardData (V := parserView Z) (fun _ => delivered_answer) hr).running
  have hseen := seen_forwardData (V := parserView Z) (fun _ => seen_answer) hr h.behind
  rw [processPending]
  split
  · exact hseen
  · exact seen_processPendingData hforward hseen

/-- The common end of `OnDone` and `FlushAndComplete`. -/
theorem seen_complete (hr : Running D (parserView Z) c) (h : Seen D (parserView Z) c) :
    Seen D (parserView Z) (complete (answer (toParser D)) c) := by
  rw [complete]
  split
  · exact seen_error _
  · exact Link.seen_complete (V := parserView Z) (fun _ => seen_answer) hr h.behind

/-- How `OnDone` goes on behind the pending input. -/
theorem seen_behind {r : Component (ZstdDecompressor Z ParserStage) × DecompressResult}
    (hr : Running D (parserView Z) r.1) (h : Seen D (parserView Z) r.1) :
    Seen D (parserView Z) (match r.2 with
      | .error => r.1
      | .suspended => r.1.deferOnDone
      | .complete => complete (answer (toParser D)) r.1) := by
  split
  · exact h
  · exact seen_congr h rfl rfl
  · exact seen_complete hr h

/-- **`FlushAndComplete`.** -/
theorem seen_flushAndComplete (hr : Running D (parserView Z) c) (h : Seen D (parserView Z) c) :
    Seen D (parserView Z) (flushAndComplete (answer (toParser D)) c) :=
  seen_behind (delivered_processPendingData hr).running (seen_processPendingData hr h)

/-- **`OnDone`.** -/
theorem seen_onDone (hr : Resting D (parserView Z) c) (h : Seen D (parserView Z) c) :
    Seen D (parserView Z) (onDone (answer (toParser D)) c) := by
  refine seen_guarded (fun hrunning hseen => ?_) hr h
  rw [doneBody]
  split
  · exact seen_congr hseen rfl rfl
  split
  · exact seen_behind (delivered_decompressChain .pending hrunning).running
      (seen_decompressChain .pending hrunning hseen)
  · exact seen_complete hrunning hseen

/-- **One input.** -/
theorem seen_step {i : Input} (hi : i.runs = true) (hidle : Idle c) (hr : Resting D (parserView Z) c)
    (h : Seen D (parserView Z) c) : Seen D (parserView Z) (step (answer (toParser D)) c i) := by
  cases i with
  | data segments =>
    rw [step, onData]
    refine seen_guarded (fun hrunning hseen => ?_) hr h
    have hreceive := fun data => (delivered_update _ rfl rfl rfl hrunning :
      Delivered D (parserView Z) c.enter (receive data c.enter))
    exact seen_dataBody (hreceive _).running (seen_update _ rfl rfl rfl hseen)
  | done => exact seen_onDone hr h
  | error e => exact seen_propagateError e hr h
  | suspend => exact seen_suspend h
  | resume =>
    rw [step]
    split
    · exact seen_resume (fun _ => running_processPending) (fun _ => seen_processPending)
        (fun _ => seen_flushAndComplete) hr h
    · exact h
  | requestClose => simp [Input.runs] at hi
  | runClose =>
    rw [step]
    split
    · rename_i hs
      exact seen_of_finalized (hidle.closed.symm.trans (hidle.scheduled (Or.inr hs)))
    · exact h

/-- **A run** in front of the parser. -/
theorem seen_run {inputs : List Input} (hi : ∀ i ∈ inputs, i.runs = true) (hidle : Idle c) (hw : Waits c)
    (hr : Resting D (parserView Z) c) (h : Seen D (parserView Z) c) :
    Seen D (parserView Z) (Runs.run (step (answer (toParser D))) c inputs) := by
  induction inputs generalizing c with
  | nil => exact h
  | cons i inputs ih =>
    have hi' := hi i List.mem_cons_self
    obtain ⟨h1, h2, -⟩ := step_spec (toParser D) hi' hidle hw
    exact ih (fun j hj => hi j (List.mem_cons_of_mem _ hj)) h1 h2 (resting_step hi' hidle hw hr)
      (seen_step hi' hidle hr h)

theorem seen_new (Z : ZstdDecoder) (turns : List SinkTurn) :
    Seen D (parserView Z) (newZstdDecompressor Z { turns := turns }) := by
  have hnil : Chain.bytes (newZstdDecompressor Z ({ turns := turns } : ParserStage)).own.outputChain = [] :=
    BufferChain.bytes_nil id none
  intro _
  show Looked D [] (Chain.bytes (newZstdDecompressor Z ({ turns := turns } : ParserStage)).own.outputChain) _
  rw [hnil]
  exact Looked.new turns

end DbnPipe.Zstd

namespace DbnPipe.Dbn

open Link

/-! ### The theorem -/

/-- **Nothing complete is held back.**  For `CramAuth` and for `ZstdDecompressor` in front of the parser, in every
run of a component that nobody else closes, with any turns of the sink, and at every moment at which the component
has given no signal: the sink has been told all there is in the bytes so far.  For `CramAuth`, which keeps what
comes while suspended, these are the bytes received unless it is suspended; for `ZstdDecompressor` they are the
bytes decompressed, suspended or not, and unless it is suspended nothing received is left to decompress. -/
theorem delivered_promptly (D : Databento) (turns : List SinkTurn) :
    (∀ (sha256 : List Byte → List Byte) (apiKey dataset : List Byte) (inputs : List Live.Input),
      (∀ i ∈ inputs, i.runs = true) →
      let c := Runs.run (Live.parserStep D sha256) (Live.beforeParser apiKey dataset turns) inputs
      c.finalized = false → c.suspended = false → UpToDate D c.own.received (c.own.next.events c.signals)) ∧
    (∀ (Z : Zstd.ZstdDecoder) (inputs : List Zstd.Input), (∀ i ∈ inputs, i.runs = true) →
      let c := Runs.run (Zstd.step (Zstd.answer (Zstd.toParser D)))
        (Zstd.newZstdDecompressor Z { turns := turns }) inputs
      c.finalized = false → UpToDate D c.own.decoded (c.own.next.events c.signals) ∧
        (c.suspended = false → c.own.fed = c.own.received)) := by
  refine ⟨fun sha256 apiKey dataset inputs hi => ?_, fun Z inputs hi => ?_⟩
  · intro c hf hsus
    have hnew := Live.flowing_beforeParser apiKey dataset turns
    have hwaits : Live.Waits (Live.beforeParser apiKey dataset turns) := fun hd => absurd hd Bool.false_ne_true
    have hresting := Live.resting_beforeParser (D := D) apiKey dataset turns
    obtain ⟨hflow, -, hlink, -⟩ := Live.run_parserStep (D := D) sha256 hi hnew hwaits hresting
    have hseen : Seen D Live.parserView c :=
      Live.seen_run sha256 hi hnew hwaits hresting (Live.seen_beforeParser apiKey dataset turns)
    have hclosed : c.closed = false := hflow.closed.trans hf
    have hreceived : c.own.consumed ++ Chain.bytes c.own.streamingChain = c.own.received := by
      have hconserved := hflow.conserved hclosed
      rw [hflow.drained hclosed hsus, List.append_nil, List.append_nil] at hconserved
      exact hconserved
    have hfollows : Follows D c.own.consumed (Chain.bytes c.own.streamingChain) c.signals c.own.next := hlink.follows
    rw [← hreceived]
    rw [hlink.fresh hf] at hfollows ⊢
    exact upToDate_of_looked (hseen hf) hfollows
  · intro c hf
    have hnew := Zstd.idle_new Z ({ turns := turns } : ParserStage)
    have hwaits : Zstd.Waits (Zstd.newZstdDecompressor Z ({ turns := turns } : ParserStage)) :=
      fun hd => absurd hd Bool.false_ne_true
    have hresting := Zstd.resting_new (D := D) Z turns
    obtain ⟨hidle, -, -⟩ := Zstd.run_spec (Zstd.toParser D) hi hnew hwaits
    have hlink : Resting D (Zstd.parserView Z) c := Zstd.resting_run hi hnew hwaits hresting
    have hseen : Seen D (Zstd.parserView Z) c := Zstd.seen_run hi hnew hwaits hresting (Zstd.seen_new Z turns)
    have hclosed : c.closed = false := hidle.closed.trans hf
    obtain ⟨hinput, houtput, -⟩ := hidle.accounted hclosed
    have hfollows : Follows D c.own.consumed (Chain.bytes c.own.outputChain) c.signals c.own.next := hlink.follows
    refine ⟨?_, fun hsus => ?_⟩
    · rw [← houtput]
      rw [hlink.fresh hf] at hfollows ⊢
      exact upToDate_of_looked (hseen hf) hfollows
    · rw [hidle.drained hclosed hsus, List.append_nil] at hinput
      exact hinput

/-- The frame comes in two parts; the sink suspends as it gets the records. -/
def twoParts : List Zstd.Input := Truncation.threeBytes.take 2

theorem delivered_promptly_stat :
    let c := Runs.run (Zstd.step (Zstd.answer (Zstd.toParser databentoCpp)))
      (Zstd.newZstdDecompressor (Zstd.canned [1, 2, 3] statStream.bytes) { turns := [{ suspends := 1 }] }) twoParts
    ∃ batches : List (List RecordRef), c.own.next.events c.signals = batches.map .data ∧
      List.Forall₂ (Delivers databentoCpp statStream.version) (statStream.records.map Record.bytes) batches.flatten := by
  intro c
  have h := (delivered_promptly databentoCpp [{ suspends := 1 }]).2 (Zstd.canned [1, 2, 3] statStream.bytes) twoParts
    (by decide) (by decide +kernel)
  have hdecoded : c.own.decoded = statStream.bytes := by decide +kernel
  exact h.1.records statStream hdecoded

end DbnPipe.Dbn
