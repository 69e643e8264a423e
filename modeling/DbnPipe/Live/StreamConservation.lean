import DbnPipe.Live.TextScan
import DbnPipe.Library.Runs

/-!
# The binary stream of CramAuth

The bytes between the socket and the downstream, once streaming has begun: in `pending_chain_` while
suspended, in `streaming_chain_` until the downstream consumes them.

* `Moment.Good` — **no byte is lost, doubled or moved** as long as the component is open, and no `OnData` of
  the downstream begins while suspended;
* `Held` — the invariant of every moment, with the bytes of a call that are in neither chain yet;
* `Keeps` — what any call keeps, a call of the downstream included: the invariant, that a deferred `OnDone`
  waits for a `Resume`, and that an `OnDone` was answered or is deferred;
* `answered_flushAndComplete`, `keeps_resume`, `keeps_arrive`, `answered_onDone` — **the entry points** around a
  downstream that keeps it; `keeps_downstream` — and so the downstream;
* `stream_conserved` — the theorem, for every run.
-/

namespace DbnPipe.Live

/-! ### The property -/

/-- A moment: an open component has all the bytes it received, in order, and the downstream is called only
when not suspended. -/
def Moment.Good (m : Moment) : Prop :=
  (m.closed = false → m.consumed ++ m.streaming ++ m.pending = m.received) ∧
    (m.start = true → m.suspended = false)

instance (m : Moment) : Decidable m.Good := inferInstanceAs (Decidable (_ ∧ _))

/-- The bytes received since streaming began are those consumed, those offered and not consumed, and those that wait. -/
def Conserved (h : CramAuth) : Prop :=
  h.consumed ++ Chain.bytes h.streamingChain ++ Chain.bytes h.pendingChain = h.received

/-! ### The invariant -/

/-- The members that the invariant is about. -/
def streamOf (h : CramAuth) : Chain × Chain × List Byte × List Byte × List Moment :=
  (h.streamingChain, h.pendingChain, h.consumed, h.received, h.moments)

theorem streamOf_congr {h h' : CramAuth} (he : streamPart h = streamPart h') : streamOf h = streamOf h' :=
  congrArg (fun p : StreamPart => (p.streamingChain, p.pendingChain, p.consumed, p.received, p.moments)) he

/-- What holds at every moment; `extra` are the bytes of a call that are in neither chain yet. -/
structure Held (extra : List Byte) (c : Component CramAuth) : Prop where
  wfStreaming : Chain.WF c.own.streamingChain
  wfPending : Chain.WF c.own.pendingChain
  conserved : c.closed = false →
    c.own.consumed ++ Chain.bytes c.own.streamingChain ++ Chain.bytes c.own.pendingChain ++ extra =
      c.own.received
  moments : ∀ m ∈ c.own.moments, m.Good
  closed : c.closed = c.finalized
  scheduled : c.closePending = true ∨ c.closeScheduled = true → c.closed = true
  signals : c.signals.length = if c.finalized then 1 else 0
  done : .done ∈ c.signals →
    Chain.bytes c.own.streamingChain = [] ∧ Chain.bytes c.own.pendingChain = [] ∧ c.own.consumed = c.own.received

/-- Before the stream begins: nothing is held, and no end of it is in sight. -/
structure Early (c : Component CramAuth) : Prop where
  streaming : Chain.bytes c.own.streamingChain = []
  pending : Chain.bytes c.own.pendingChain = []
  donePending : c.donePending = false
  noDone : .done ∉ c.signals

/-- Between two calls, or as a component resumes. -/
structure Loose (c : Component CramAuth) : Prop extends Held [] c where
  line : 10 ∉ c.own.lineBuffer
  text : c.own.state ≠ .streaming → Early c

/-- Between two calls nothing waits unless suspended. -/
structure Flowing (c : Component CramAuth) : Prop extends Loose c where
  drained : c.closed = false → c.suspended = false → Chain.bytes c.own.pendingChain = []

/-- A deferred `OnDone` waits for a `Resume`. -/
def Waits (c : Component CramAuth) : Prop := c.donePending = true → c.suspended = true

/-- An `OnDone` was answered or is deferred. -/
def Answers (c : Component CramAuth) : Prop := c.finalized = true ∨ c.donePending = true

/-- **What any call keeps.** -/
structure Keeps (c c' : Component CramAuth) : Prop where
  flowing : Flowing c'
  stays : c.own.state = .streaming → c'.own.state = .streaming
  waits : Waits c → Waits c'
  answers : Answers c → Answers c'

variable {c d : Component CramAuth} {extra : List Byte}

theorem Keeps.refl (h : Flowing c) : Keeps c c := ⟨h, id, id, id⟩

theorem Keeps.trans {a b d : Component CramAuth} (h : Keeps a b) (h' : Keeps b d) : Keeps a d :=
  ⟨h'.flowing, fun hs => h'.stays (h.stays hs), fun hw => h'.waits (h.waits hw),
    fun ha => h'.answers (h.answers ha)⟩

/-- The invariant is about the stream, the closing flags and the signals. -/
theorem held_congr (h : Held extra c) (hstream : streamOf d.own = streamOf c.own)
    (hclosed : d.closed = c.closed) (hfinalized : d.finalized = c.finalized) (hsignals : d.signals = c.signals)
    (hscheduled : d.closePending = true ∨ d.closeScheduled = true →
      c.closePending = true ∨ c.closeScheduled = true) : Held extra d := by
  simp only [streamOf, Prod.mk.injEq] at hstream
  obtain ⟨h1, h2, h3, h4, h5⟩ := hstream
  refine ⟨?_, ?_, ?_, ?_, ?_, ?_, ?_, ?_⟩
  · rw [h1]; exact h.wfStreaming
  · rw [h2]; exact h.wfPending
  · rw [hclosed, h1, h2, h3, h4]; exact h.conserved
  · rw [h5]; exact h.moments
  · rw [hclosed, hfinalized]; exact h.closed
  · rw [hclosed]
    exact fun hs => h.scheduled (hscheduled hs)
  · rw [hsignals, hfinalized]; exact h.signals
  · rw [hsignals, h1, h2, h3, h4]; exact h.done

theorem held_update (f : CramAuth → CramAuth) (hf : streamOf (f c.own) = streamOf c.own) (h : Held extra c) :
    Held extra (update f c) := held_congr h hf rfl rfl rfl id

theorem held_enter (h : Held extra c) : Held extra c.enter := held_congr h rfl rfl rfl rfl id

theorem held_leave (h : Held extra c) : Held extra c.leave :=
  held_congr h (congrArg streamOf c.leave_own) c.leave_closed c.leave_finalized c.leave_signals
    Component.leave_scheduled

theorem held_count (n : ℕ) (h : Held extra c) : Held extra { c with suspendCount := n } :=
  held_congr h rfl rfl rfl rfl id

/-- The bytes of a closed component no longer matter. -/
theorem held_of_closed (h : Held extra c) (hc : c.closed = true) (extra' : List Byte) : Held extra' c :=
  ⟨h.wfStreaming, h.wfPending, fun ho => absurd (hc.symm.trans ho) (by simp), h.moments, h.closed, h.scheduled,
    h.signals, h.done⟩

/-- No terminal signal was given to an open component's downstream. -/
theorem Held.noDone (h : Held extra c) (hc : c.closed = false) : Signal.done ∉ c.signals := by
  have hs := h.signals
  rw [← h.closed, hc] at hs
  rw [List.length_eq_zero_iff.mp hs]
  exact List.not_mem_nil

theorem suspended_congr (h : d.suspendCount = c.suspendCount) : d.suspended = c.suspended := by
  rw [Component.suspended, Component.suspended, h]

/-! ### Ending -/

/-- After an error the bytes no longer matter. -/
theorem held_fail (code : ErrorCode) (message : String) (extra' : List Byte) (h : Held extra c) :
    Held extra' (fail code message c) := by
  have hown := fail_own code message c
  refine ⟨?_, ?_, ?_, ?_, ?_, fun _ => fail_closed _ _ _, ?_, ?_⟩
  · rw [hown]; exact h.wfStreaming
  · rw [hown]; exact h.wfPending
  · rw [fail_closed]
    exact fun hc => absurd hc (by simp)
  · rw [hown]; exact h.moments
  · rw [fail_closed, fail_finalized]
  · have hs := h.signals
    rw [fail_signals, fail_finalized, if_pos rfl]
    cases hf : c.finalized with
    | true =>
      rw [hf, if_pos rfl] at hs
      rw [if_pos rfl, hs]
    | false =>
      rw [hf, if_neg Bool.false_ne_true] at hs
      rw [if_neg Bool.false_ne_true, List.length_append, hs]
      rfl
  · rw [hown, fail_signals]
    intro hd
    refine h.done ?_
    split at hd
    · exact hd
    · simpa using hd

/-- `OnDone` goes to the downstream when both chains are empty. -/
theorem held_done (h : Held [] c) (hs : Chain.bytes c.own.streamingChain = [])
    (hp : c.closed = false → Chain.bytes c.own.pendingChain = []) : Held [] c.emitDone.requestClose := by
  cases hc : c.closed with
  | true =>
    rw [Component.done_of_closed hc (h.closed.symm.trans hc)]
    exact h
  | false =>
    have hf : c.finalized = false := h.closed.symm.trans hc
    have he := Component.ended_done hc hf
    have hsig := h.signals
    rw [hf, if_neg Bool.false_ne_true] at hsig
    refine ⟨?_, ?_, ?_, ?_, ?_, fun _ => he.closed, ?_, ?_⟩
    · rw [he.own]; exact h.wfStreaming
    · rw [he.own]; exact h.wfPending
    · rw [he.closed]
      exact fun hc => absurd hc (by simp)
    · rw [he.own]; exact h.moments
    · rw [he.closed, he.finalized]
    · rw [he.signals, he.finalized, List.length_append, hsig]
      rfl
    · rw [he.own]
      have hconserved := h.conserved hc
      rw [hs, hp hc, List.append_nil, List.append_nil, List.append_nil] at hconserved
      exact fun _ => ⟨hs, hp hc, hconserved⟩

theorem early_fail (code : ErrorCode) (message : String) (h : Early c) : Early (fail code message c) := by
  have hown := fail_own code message c
  refine ⟨?_, ?_, ?_, ?_⟩
  · rw [hown]; exact h.streaming
  · rw [hown]; exact h.pending
  · rw [fail_donePending]; exact h.donePending
  · rw [fail_signals]
    split
    · exact h.noDone
    · simpa using h.noDone

theorem flowing_fail (code : ErrorCode) (message : String) (h : Flowing c) : Flowing (fail code message c) := by
  have hown := fail_own code message c
  refine ⟨⟨held_fail code message [] h.toHeld, ?_, ?_⟩, ?_⟩
  · rw [hown]; exact h.line
  · rw [hown]
    exact fun hs => early_fail code message (h.text hs)
  · rw [fail_closed]
    exact fun hc => absurd hc (by simp)

theorem keeps_fail (code : ErrorCode) (message : String) (h : Flowing c) : Keeps c (fail code message c) := by
  refine ⟨flowing_fail code message h, ?_, fun hw => ?_, fun _ => Or.inl (fail_finalized _ _ _)⟩
  · rw [fail_own]
    exact id
  · rw [Waits, fail_donePending, Component.suspended, fail_suspendCount]
    exact hw

/-- Guards and counts. -/
theorem flowing_congr (h : Flowing c) (hd : Held [] d) (hown : d.own = c.own) (hclosed : d.closed = c.closed)
    (hdone : d.own.state ≠ .streaming → d.donePending = c.donePending) (hsignals : d.signals = c.signals)
    (hsus : d.suspended = false → c.suspended = false) : Flowing d := by
  refine ⟨⟨hd, ?_, fun hs => ?_⟩, ?_⟩
  · rw [hown]; exact h.line
  · have hdp := hdone hs
    rw [hown] at hs
    obtain ⟨h1, h2, h3, h4⟩ := h.text hs
    rw [← hown] at h1 h2
    exact ⟨h1, h2, hdp.trans h3, by rw [hsignals]; exact h4⟩
  · rw [hown, hclosed]
    exact fun hc hs => h.drained hc (hsus hs)

theorem flowing_enter (h : Flowing c) : Flowing c.enter :=
  flowing_congr h (held_enter h.toHeld) rfl rfl (fun _ => rfl) rfl id

theorem keeps_leave (h : Flowing c) : Keeps c c.leave := by
  refine ⟨flowing_congr h (held_leave h.toHeld) c.leave_own c.leave_closed (fun _ => c.leave_donePending)
    c.leave_signals ?_, ?_, ?_, ?_⟩
  · rw [Component.leave_suspended]
    exact id
  · rw [Component.leave_own]
    exact id
  · rw [Waits, Waits, Component.leave_donePending, Component.leave_suspended]
    exact id
  · rw [Answers, Answers, Component.leave_donePending, Component.leave_finalized]
    exact id

theorem keeps_suspend (h : Flowing c) : Keeps c c.suspend := by
  have hsus : c.suspend.suspended = true := by
    rw [Component.suspended_iff, Component.suspend]
    split <;> exact Nat.succ_pos _
  have hdone : c.suspend.donePending = c.donePending ∧ c.suspend.finalized = c.finalized ∧
      c.suspend.signals = c.signals := by
    rw [Component.suspend]
    split <;> exact ⟨rfl, rfl, rfl⟩
  have hheld : Held [] c.suspend := by
    rw [Component.suspend]
    split <;> exact held_congr h.toHeld rfl rfl rfl rfl id
  refine ⟨flowing_congr h hheld (Component.suspend_own c) (Component.suspend_closed c) (fun _ => hdone.1)
    hdone.2.2 ?_, ?_, fun _ _ => hsus, ?_⟩
  · rw [hsus]
    exact fun hs => absurd hs (by simp)
  · rw [Component.suspend_own]
    exact id
  · rw [Answers, Answers, hdone.1, hdone.2.1]
    exact id

/-! ### Beside the stream -/

/-- What the handshake does to the stream: nothing, besides reporting errors; `extra` are the bytes of the call that
are of the stream. -/
structure OffStream (extra : List Byte) (c d : Component CramAuth) : Prop where
  held : Held extra d
  stream : streamOf d.own = streamOf c.own
  suspendCount : d.suspendCount = c.suspendCount
  donePending : d.donePending = c.donePending
  finalized : c.finalized = true → d.finalized = true
  closed : c.closed = true → d.closed = true
  noDone : .done ∉ c.signals → .done ∉ d.signals

theorem offStream_refl (h : Held extra c) : OffStream extra c c := ⟨h, rfl, rfl, rfl, id, id, id⟩

theorem offStream_update (f : CramAuth → CramAuth) (hf : streamPart (f d.own) = streamPart d.own)
    (h : OffStream extra c d) : OffStream extra c (update f d) :=
  ⟨held_update f (streamOf_congr hf) h.held, (streamOf_congr hf).trans h.stream, h.suspendCount,
    h.donePending, h.finalized, h.closed, h.noDone⟩

theorem offStream_fail (code : ErrorCode) (message : String) (h : OffStream extra c d) :
    OffStream extra c (fail code message d) := by
  refine ⟨held_fail _ _ extra h.held, (congrArg streamOf (fail_own _ _ _)).trans h.stream,
    (fail_suspendCount _ _ _).trans h.suspendCount, (fail_donePending _ _ _).trans h.donePending,
    fun _ => fail_finalized _ _ _, fun _ => fail_closed _ _ _, fun hd => ?_⟩
  rw [fail_signals]
  split
  · exact h.noDone hd
  · simpa using h.noDone hd

theorem OffStream.waits (hd : OffStream extra c d) : Waits c → Waits d := by
  rw [Waits, Waits, hd.donePending, suspended_congr hd.suspendCount]
  exact id

theorem OffStream.answers (hd : OffStream extra c d) : Answers c → Answers d := by
  rw [Answers, Answers, hd.donePending]
  exact fun ha => ha.imp_left hd.finalized

theorem keeps_offStream (h : Flowing c) (hd : OffStream [] c d) (hline : 10 ∉ d.own.lineBuffer)
    (hstays : c.own.state = .streaming → d.own.state = .streaming) : Keeps c d := by
  have hstream := hd.stream
  simp only [streamOf, Prod.mk.injEq] at hstream
  obtain ⟨hs1, hs2, -⟩ := hstream
  have hsus := suspended_congr hd.suspendCount
  refine ⟨⟨⟨hd.held, hline, fun hns => ?_⟩, fun hopen hf => ?_⟩, hstays, hd.waits, hd.answers⟩
  · obtain ⟨h1, h2, h3, h4⟩ := h.text fun hst => hns (hstays hst)
    exact ⟨by rw [hs1]; exact h1, by rw [hs2]; exact h2, hd.donePending.trans h3, hd.noDone h4⟩
  · rw [hs2]
    refine h.drained ?_ (hsus.symm.trans hf)
    by_contra hc
    rw [hd.closed (Bool.not_eq_false _ ▸ hc)] at hopen
    simp at hopen

/-! ### Splicing -/

/-- What a checked splice does: it reports an overflow, or the component goes on with an empty pending
chain. -/
structure Spliced (extra : List Byte) (c : Component CramAuth) (r : Component CramAuth × Bool) : Prop where
  held : Held extra r.1
  pending : r.2 = true → Chain.bytes r.1.own.pendingChain = []
  signals : .done ∉ c.signals → .done ∉ r.1.signals
  overflows : r.2 = false → r.1.closed = true
  line : r.1.own.lineBuffer = c.own.lineBuffer
  state : r.1.own.state = c.own.state
  suspendCount : r.1.suspendCount = c.suspendCount
  donePending : r.1.donePending = c.donePending
  finalized : c.finalized = true → r.1.finalized = true
  nothing : Chain.bytes c.own.pendingChain = [] →
    Chain.bytes r.1.own.streamingChain = Chain.bytes c.own.streamingChain ∧
      Chain.bytes r.1.own.pendingChain = []

theorem spliced_overflow (h : Held extra c) (extra' : List Byte) (message : String)
    (hne : Chain.bytes c.own.pendingChain ≠ []) : Spliced extra' c (emitOverflow message c, false) where
  held := held_fail _ message extra' h
  pending := fun hf => absurd hf Bool.false_ne_true
  signals := by
    intro hd
    rw [emitOverflow, fail_signals]
    split
    · exact hd
    · simpa using hd
  overflows := fun _ => fail_closed _ _ _
  line := by rw [emitOverflow, fail_own]
  state := by rw [emitOverflow, fail_own]
  suspendCount := fail_suspendCount _ _ _
  donePending := fail_donePending _ _ _
  finalized := fun _ => fail_finalized _ _ _
  nothing := fun hnil => absurd hnil hne

/-- **The pending chain goes behind the streaming chain.** -/
theorem splicePending_spec (h : Held extra c) : Spliced extra c (splicePending c) := by
  rw [splicePending, toStreaming]
  rcases spliceChecked_cases CramAuth.streamingChain (fun chain h => { h with streamingChain := chain })
    c.own.pendingChain c with ⟨he, hr⟩ | ⟨he, -, hr⟩ | ⟨he, -, hr⟩
  · have hnil := (Chain.empty_iff h.wfPending).mp he
    rw [hr]
    exact ⟨held_congr h rfl rfl rfl rfl id, fun _ => hnil, id, fun hf => absurd hf (by simp), rfl,
      rfl, rfl, rfl, id, fun _ => ⟨rfl, hnil⟩⟩
  · have hne := (Chain.not_empty_iff h.wfPending).mp he
    have hsame : update (fun x => { x with pendingChain := c.own.pendingChain })
        (emitOverflow "Binary buffer overflow" c) = emitOverflow "Binary buffer overflow" c := by
      have hown := fail_own .bufferOverflow "Binary buffer overflow" c
      rw [update, emitOverflow, hown, ← hown]
    rw [hr]
    simp only [hsame]
    exact spliced_overflow h extra _ hne
  · have hne := (Chain.not_empty_iff h.wfPending).mp he
    obtain ⟨h1, h2, h3, h4⟩ := Chain.compactAndSplice_spec h.wfStreaming h.wfPending
    rw [hr]
    refine ⟨⟨h1, h3, fun hc => ?_, h.moments, h.closed, h.scheduled, h.signals, fun hd => ?_⟩, fun _ => h4,
      id, fun hf => absurd hf (by simp), rfl, rfl, rfl, rfl, id, fun hnil => absurd hnil hne⟩
    · have hconserved := h.conserved hc
      simp only [update_own, h2, h4, List.append_nil]
      rw [← List.append_assoc]
      exact hconserved
    · exact absurd (h.done hd).2.1 hne

/-- What a splice of a call's bytes leaves alone. -/
structure Taken (c c' : Component CramAuth) : Prop where
  held : Held [] c'
  line : c'.own.lineBuffer = c.own.lineBuffer
  state : c'.own.state = c.own.state
  suspendCount : c'.suspendCount = c.suspendCount
  donePending : c'.donePending = c.donePending
  finalized : c.finalized = true → c'.finalized = true

theorem taken_overflow (h : Held extra c) (message : String) : Taken c (emitOverflow message c) where
  held := held_fail _ _ [] h
  line := by rw [emitOverflow, fail_own]
  state := by rw [emitOverflow, fail_own]
  suspendCount := fail_suspendCount _ _ _
  donePending := fail_donePending _ _ _
  finalized := fun _ => fail_finalized _ _ _

/-- The bytes of a call go behind the streaming chain, where nothing waits. -/
theorem toStreaming_spec {data : Chain} (hwf : Chain.WF data) (h : Held (Chain.bytes data) c)
    (hnd : .done ∉ c.signals) (hp : Chain.bytes c.own.pendingChain = []) :
    Taken c (toStreaming data c).1 ∧ Chain.bytes (toStreaming data c).1.own.pendingChain = [] := by
  rw [toStreaming]
  rcases spliceChecked_cases CramAuth.streamingChain (fun chain h => { h with streamingChain := chain })
    data c with ⟨he, hr⟩ | ⟨-, -, hr⟩ | ⟨-, -, hr⟩
  · rw [hr]
    rw [(Chain.empty_iff hwf).mp he] at h
    exact ⟨⟨h, rfl, rfl, rfl, rfl, id⟩, hp⟩
  · rw [hr]
    refine ⟨taken_overflow h _, ?_⟩
    rw [emitOverflow, fail_own]
    exact hp
  · obtain ⟨h1, h2, -, -⟩ := Chain.compactAndSplice_spec h.wfStreaming hwf
    rw [hr]
    refine ⟨⟨⟨h1, h.wfPending, fun hc => ?_, h.moments, h.closed, h.scheduled, h.signals,
      fun hd => absurd hd hnd⟩, rfl, rfl, rfl, rfl, id⟩, hp⟩
    have hconserved := h.conserved hc
    rw [hp, List.append_nil] at hconserved
    simp only [update_own, h2, hp, List.append_nil]
    rw [← List.append_assoc]
    exact hconserved

/-- The bytes of a call go behind the pending chain. -/
theorem toPending_spec {data : Chain} (hwf : Chain.WF data) (h : Held (Chain.bytes data) c)
    (hnd : .done ∉ c.signals) : Taken c (toPending data c).1 := by
  rw [toPending]
  rcases spliceChecked_cases CramAuth.pendingChain (fun chain h => { h with pendingChain := chain })
    data c with ⟨he, hr⟩ | ⟨-, -, hr⟩ | ⟨-, -, hr⟩
  · rw [hr]
    rw [(Chain.empty_iff hwf).mp he] at h
    exact ⟨h, rfl, rfl, rfl, rfl, id⟩
  · rw [hr]
    exact taken_overflow h _
  · obtain ⟨h1, h2, -, -⟩ := Chain.compactAndSplice_spec h.wfPending hwf
    rw [hr]
    refine ⟨⟨h.wfStreaming, h1, fun hc => ?_, h.moments, h.closed, h.scheduled, h.signals,
      fun hd => absurd hd hnd⟩, rfl, rfl, rfl, rfl, id⟩
    simp only [update_own, h2, List.append_nil]
    rw [← List.append_assoc]
    exact h.conserved hc

/-! ### The downstream's acts -/

theorem keeps_consume (n : ℕ) (h : Flowing c) : Keeps c (consume n c) := by
  have hdrop : Chain.bytes (c.own.streamingChain.consume id (min n c.own.streamingChain.size)) =
      (Chain.bytes c.own.streamingChain).drop n := Chain.bytes_consumed_min h.wfStreaming n
  have hnil : Chain.bytes c.own.streamingChain = [] →
      Chain.bytes (c.own.streamingChain.consume id (min n c.own.streamingChain.size)) = [] := by
    intro he
    rw [hdrop, he, List.drop_nil]
  refine ⟨⟨⟨⟨Chain.wf_consumed h.wfStreaming _, h.wfPending, fun hc => ?_, h.moments, h.closed, h.scheduled,
    h.signals, fun hd => ?_⟩, h.line,
    fun hs => ⟨hnil (h.text hs).streaming, (h.text hs).pending, (h.text hs).donePending, (h.text hs).noDone⟩⟩,
    h.drained⟩, id, id, id⟩
  · have hconserved := h.conserved hc
    simp only [consume, update_own, hdrop]
    rw [List.append_assoc c.own.consumed, List.take_append_drop]
    exact hconserved
  · obtain ⟨h1, h2, h3⟩ := h.done hd
    refine ⟨hnil h1, h2, ?_⟩
    simp only [consume, update_own, h1, List.take_nil, List.append_nil]
    exact h3

/-- A moment of the invariant is a good one. -/
theorem keeps_observe {start : Bool} (h : Flowing c) (hs : start = true → c.suspended = false) :
    Keeps c (observe start c) := by
  refine ⟨⟨⟨⟨h.wfStreaming, h.wfPending, h.conserved, fun m hm => ?_, h.closed, h.scheduled, h.signals, h.done⟩,
    h.line, fun hs => ⟨(h.text hs).streaming, (h.text hs).pending, (h.text hs).donePending, (h.text hs).noDone⟩⟩,
    h.drained⟩, id, id, id⟩
  rcases List.mem_append.mp hm with hm | hm
  · exact h.moments m hm
  · rw [List.mem_singleton.mp hm]
    refine ⟨fun hc => ?_, hs⟩
    have hconserved := h.conserved hc
    rw [List.append_nil] at hconserved
    exact hconserved

/-! ### The entry points -/

/-- A splice, seen as a call. -/
theorem Spliced.flowing {r : Component CramAuth × Bool} (hr : Spliced [] c r) (h : Loose c) : Flowing r.1 := by
  refine ⟨⟨hr.held, ?_, ?_⟩, fun hc _ => ?_⟩
  · rw [hr.line]; exact h.line
  · rw [hr.state]
    intro hs
    obtain ⟨h1, h2, h3, h4⟩ := h.text hs
    have hn := hr.nothing h2
    exact ⟨hn.1.trans h1, hn.2, hr.donePending.trans h3, hr.signals h4⟩
  · cases hok : r.2 with
    | true => exact hr.pending hok
    | false =>
      rw [hr.overflows hok] at hc
      simp at hc

/-- What answers an `OnDone`: nothing is left to do, or it is deferred. -/
structure Answered (c : Component CramAuth) : Prop where
  flowing : Flowing c
  waits : Waits c
  answers : Answers c

theorem answered_fail (code : ErrorCode) (message : String) (h : Flowing c) (hw : Waits c) :
    Answered (fail code message c) :=
  ⟨flowing_fail code message h, (keeps_fail code message h).waits hw, Or.inl (fail_finalized _ _ _)⟩

theorem answered_done (h : Flowing c) (hw : Waits c) (hempty : Chain.bytes c.own.streamingChain = [])
    (hs : c.suspended = false) (hstate : c.own.state = .streaming) : Answered c.emitDone.requestClose := by
  have hheld := held_done h.toHeld hempty fun hc => h.drained hc hs
  cases hc : c.closed with
  | true =>
    have hf := h.closed.symm.trans hc
    rw [Component.done_of_closed hc hf]
    exact ⟨h, hw, Or.inl hf⟩
  | false =>
    have he := Component.ended_done hc (h.closed.symm.trans hc)
    refine ⟨⟨⟨hheld, ?_, ?_⟩, ?_⟩, ?_, Or.inl he.finalized⟩
    · rw [he.own]; exact h.line
    · rw [he.own]
      exact fun hns => absurd hstate hns
    · rw [he.closed]
      exact fun hf => absurd hf (by simp)
    · rw [Waits, he.donePending, suspended_congr he.suspendCount]
      exact hw

theorem emitDone_state (c : Component CramAuth) : c.emitDone.requestClose.own = c.own := by
  rw [Component.requestClose_own, Component.emitDone_own]

/-- What a splice of a call's bytes leads to, in the stream. -/
theorem keeps_taken {e : Component CramAuth} (h : 10 ∉ c.own.lineBuffer) (hs : c.own.state = .streaming)
    (hd : d.own.lineBuffer = c.own.lineBuffer ∧ d.own.state = c.own.state ∧
      d.suspendCount = c.suspendCount ∧ d.donePending = c.donePending ∧
      (c.finalized = true → d.finalized = true))
    (ht : Taken d e) (hdrained : e.closed = false → e.suspended = false → Chain.bytes e.own.pendingChain = []) :
    Keeps c e := by
  obtain ⟨hline, hstate, hcount, hdone, hfin⟩ := hd
  have hst : e.own.state = .streaming := ht.state.trans (hstate.trans hs)
  refine ⟨⟨⟨ht.held, ?_, fun hns => absurd hst hns⟩, hdrained⟩, fun _ => hst, ?_, ?_⟩
  · rw [ht.line, hline]
    exact h
  · rw [Waits, Waits, ht.donePending, hdone, suspended_congr (ht.suspendCount.trans hcount)]
    exact id
  · rw [Answers, Answers, ht.donePending, hdone]
    exact fun ha => ha.imp_left fun hf => ht.finalized (hfin hf)

section Deliver

variable {deliver : Component CramAuth → Component CramAuth}
  (hdeliver : ∀ c : Component CramAuth, c.suspended = false → Flowing c → Keeps c (deliver c))

include hdeliver

theorem keeps_offer (h : Flowing c) (hs : c.suspended = false) : Keeps c (offer deliver c) := by
  have hoffer : Flowing (update (fun h => { h with offers := h.offers + 1 }) (record .offered c)) :=
    ⟨⟨held_congr h.toHeld rfl rfl rfl rfl id, h.line, fun hns =>
      ⟨(h.text hns).streaming, (h.text hns).pending, (h.text hns).donePending, (h.text hns).noDone⟩⟩, h.drained⟩
  have hcall := fun hs' => hdeliver _ hs' hoffer
  exact ⟨(hcall hs).flowing, (hcall hs).stays, (hcall hs).waits, (hcall hs).answers⟩

/-- **`FlushAndComplete`** answers an `OnDone`. -/
theorem answered_flushAndComplete (h : Flowing c) (hs : c.suspended = false) (hd : c.donePending = false)
    (hstate : c.own.state = .streaming) :
    Answered (flushAndComplete deliver c) ∧ (flushAndComplete deliver c).own.state = .streaming := by
  have hsplice := splicePending_spec h.toHeld
  have hflow := hsplice.flowing h.toLoose
  have hw : Waits (splicePending c).1 := by
    rw [Waits, hsplice.donePending, hd]
    exact fun hf => absurd hf Bool.false_ne_true
  have hsus : (splicePending c).1.suspended = false := (suspended_congr hsplice.suspendCount).trans hs
  have hst : (splicePending c).1.own.state = .streaming := hsplice.state.trans hstate
  rw [flushAndComplete]
  simp only
  cases hok : (splicePending c).2 with
  | false => exact ⟨⟨hflow, hw, Or.inl (hflow.closed.symm.trans (hsplice.overflows hok))⟩, hst⟩
  | true =>
    simp only [Bool.not_true, Bool.false_eq_true, if_false, Component.completeWithFlush,
      Component.flushPendingData]
    generalize (splicePending c).1 = a at hflow hw hsus hst
    cases he : a.own.streamingChain.empty with
    | true =>
      have hempty := (Chain.empty_iff hflow.wfStreaming).mp he
      exact ⟨answered_done hflow hw hempty hsus hst, (congrArg CramAuth.state (emitDone_state a)).trans hst⟩
    | false =>
      have hoffer := keeps_offer hdeliver hflow hsus
      simp only [Bool.false_eq_true, if_false]
      generalize offer deliver a = b at hoffer
      have hb := hoffer.flowing
      have hbst := hoffer.stays hst
      cases hbs : b.suspended with
      | true =>
        have hdefer : Flowing b.deferOnDone :=
          flowing_congr hb (held_congr hb.toHeld rfl rfl rfl rfl id) rfl rfl (fun hns => absurd hbst hns) rfl id
        exact ⟨⟨hdefer, fun _ => hbs, Or.inr rfl⟩, hbst⟩
      | false =>
        cases hbe : b.own.streamingChain.empty with
        | true =>
          have hempty := (Chain.empty_iff hb.wfStreaming).mp hbe
          exact ⟨answered_done hb (hoffer.waits hw) hempty hbs hbst,
            (congrArg CramAuth.state (emitDone_state b)).trans hbst⟩
        | false =>
          exact ⟨answered_fail _ _ hb (hoffer.waits hw), (congrArg CramAuth.state (fail_own _ _ b)).trans hbst⟩

/-- `ProcessPending`, as a component resumes. -/
theorem flowing_processPending (h : Loose c) (hs : c.suspended = false) :
    Flowing (processPending deliver c) ∧
      (c.own.state = .streaming → (processPending deliver c).own.state = .streaming) ∧
      (Answers c → Answers (processPending deliver c)) := by
  have hsplice := splicePending_spec h.toHeld
  have hflow := hsplice.flowing h
  have hsus : (splicePending c).1.suspended = false := (suspended_congr hsplice.suspendCount).trans hs
  have hst : c.own.state = .streaming → (splicePending c).1.own.state = .streaming := hsplice.state.trans
  have hans : Answers c → Answers (splicePending c).1 := by
    rw [Answers, Answers, hsplice.donePending]
    exact fun ha => ha.imp_left hsplice.finalized
  rw [processPending]
  cases hok : (splicePending c).2 with
  | false => exact ⟨hflow, hst, hans⟩
  | true =>
    simp only [Bool.not_true, Bool.false_eq_true, if_false, Component.forwardData]
    split
    · exact ⟨hflow, hst, hans⟩
    · have hoffer := keeps_offer hdeliver hflow hsus
      exact ⟨hoffer.flowing, fun hs => hoffer.stays (hst hs), fun ha => hoffer.answers (hans ha)⟩

/-- The deferred `OnDone` at the end of a `Resume`. -/
theorem keeps_completeDeferred (h : Flowing c) :
    Keeps c (c.completeDeferred (flushAndComplete deliver)) ∧
      Waits (c.completeDeferred (flushAndComplete deliver)) := by
  rw [Component.completeDeferred]
  split
  · rename_i hcond
    have hstate : c.own.state = .streaming := by
      by_contra hns
      rw [(h.text hns).donePending] at hcond
      simp at hcond
    have hclear : Flowing c.clearDone :=
      flowing_congr h (held_congr h.toHeld rfl rfl rfl rfl id) rfl rfl (fun hns => absurd hstate hns) rfl id
    obtain ⟨hans, hst⟩ := answered_flushAndComplete hdeliver hclear hcond.2 rfl hstate
    exact ⟨⟨hans.flowing, fun _ => hst, fun _ => hans.waits, fun _ => hans.answers⟩, hans.waits⟩
  · rename_i hcond
    refine ⟨Keeps.refl h, fun hd => ?_⟩
    by_contra hs
    exact hcond ⟨hd, Bool.eq_false_iff.mpr hs⟩

/-- **`Resume`.** -/
theorem keeps_resume (h : Flowing c) (hs : c.suspended = true) : Keeps c (resume deliver c) := by
  have hcount : ∀ n, Loose { c with suspendCount := n } := fun n =>
    ⟨held_count n h.toHeld, h.line, fun hns =>
      ⟨(h.text hns).streaming, (h.text hns).pending, (h.text hns).donePending, (h.text hns).noDone⟩⟩
  rw [resume]
  by_cases hone : c.suspendCount = 1
  · cases hclosed : c.closed with
    | true =>
      rw [Component.resume_of_closed hone hclosed]
      have hflow : Flowing { c with suspendCount := 0 } :=
        ⟨hcount 0, fun hc => absurd (hclosed.symm.trans hc) (by simp)⟩
      obtain ⟨hkeeps, hw⟩ := keeps_completeDeferred hdeliver hflow
      exact ⟨hkeeps.flowing, hkeeps.stays, fun _ => hw, hkeeps.answers⟩
    | false =>
      rw [Component.resume_of_eq hone hclosed]
      have hresumed : Loose c.resumed := ⟨held_enter (hcount 0).toHeld, h.line, fun hns =>
        ⟨(h.text hns).streaming, (h.text hns).pending, (h.text hns).donePending, (h.text hns).noDone⟩⟩
      obtain ⟨hp, hpst, hpa⟩ := flowing_processPending hdeliver hresumed rfl
      have hup : Keeps (processPending deliver c.resumed) (processPending deliver c.resumed).resumeUpstream := by
        rw [Component.resumeUpstream]
        split
        · exact Keeps.refl hp
        · exact ⟨flowing_congr hp (held_congr hp.toHeld rfl rfl rfl rfl id) rfl rfl (fun _ => rfl) rfl id, id,
            id, id⟩
      obtain ⟨hkeeps, hw⟩ := keeps_completeDeferred hdeliver hup.flowing
      have hleave := keeps_leave hkeeps.flowing
      exact ⟨hleave.flowing, fun hst => hleave.stays (hkeeps.stays (hup.stays (hpst hst))),
        fun _ => hleave.waits hw, fun ha => hleave.answers (hkeeps.answers (hup.answers (hpa ha)))⟩
  · have hpos := (Component.suspended_iff c).mp hs
    have hstill : (0 : ℕ) < c.suspendCount - 1 := by omega
    rw [Component.resume_of_ne hone]
    refine ⟨⟨hcount _, fun _ hf => ?_⟩, id, fun _ _ => decide_eq_true hstill, id⟩
    exact absurd ((Component.not_suspended_iff _).mp hf) (by simp only; omega)

/-- **Binary bytes**, of a call that are in neither chain yet. -/
theorem keeps_onBinaryData {data : Chain} (hwf : Chain.WF data) (h : Held (Chain.bytes data) c)
    (hline : 10 ∉ c.own.lineBuffer) (hnd : .done ∉ c.signals) (hs : c.own.state = .streaming) :
    Keeps c (onBinaryData deliver data c).1 := by
  rw [onBinaryData]
  cases hsus : c.suspended with
  | true =>
    have ht := toPending_spec hwf h hnd
    simp only [if_true]
    refine keeps_taken (d := c) hline hs ⟨rfl, rfl, rfl, rfl, id⟩ ht fun _ hf => ?_
    rw [suspended_congr ht.suspendCount, hsus] at hf
    simp at hf
  | false =>
    have hsplice := splicePending_spec h
    have hsame : (splicePending c).1.own.lineBuffer = c.own.lineBuffer ∧
        (splicePending c).1.own.state = c.own.state ∧
        (splicePending c).1.suspendCount = c.suspendCount ∧
        (splicePending c).1.donePending = c.donePending ∧
        (c.finalized = true → (splicePending c).1.finalized = true) :=
      ⟨hsplice.line, hsplice.state, hsplice.suspendCount, hsplice.donePending, hsplice.finalized⟩
    simp only [Bool.false_eq_true, if_false, forwardBinaryData]
    cases hok : (splicePending c).2 with
    | false =>
      have hc := hsplice.overflows hok
      simp only [Bool.not_false, if_true]
      refine keeps_taken hline hs hsame ⟨held_of_closed hsplice.held hc [], rfl, rfl, rfl, rfl, id⟩ fun hf => ?_
      rw [hc] at hf
      simp at hf
    | true =>
      obtain ⟨ht, hp⟩ := toStreaming_spec hwf hsplice.held (hsplice.signals hnd) (hsplice.pending hok)
      have hkeeps := keeps_taken hline hs hsame ht fun _ _ => hp
      have hsus' : (toStreaming data (splicePending c).1).1.suspended = false :=
        (suspended_congr (ht.suspendCount.trans hsplice.suspendCount)).trans hsus
      simp only [Bool.not_true, Bool.false_eq_true, if_false]
      split
      · exact hkeeps.trans (keeps_offer hdeliver hkeeps.flowing hsus')
      · exact hkeeps

omit hdeliver in
/-- Bytes of the stream have come, and are in neither chain yet. -/
theorem held_receive (bytes : List Byte) (h : Held [] c) (hopen : c.closed = false) : Held bytes (receive bytes c) := by
  refine ⟨h.wfStreaming, h.wfPending, fun hc => ?_, h.moments, h.closed, h.scheduled, h.signals,
    fun hd => absurd hd (h.noDone hopen)⟩
  have hconserved := h.conserved hc
  rw [List.append_nil] at hconserved
  exact congrArg (· ++ bytes) hconserved

omit hdeliver in
theorem receive_nil (c : Component CramAuth) : receive [] c = c := by
  rw [receive, update, List.append_nil]

/-- A call in the stream. -/
theorem keeps_arrive_streaming (sha256 : List Byte → List Byte) (segments : List Segment) (h : Flowing c)
    (hopen : c.closed = false) (hs : c.own.state = .streaming) : Keeps c (arrive sha256 deliver segments c) := by
  have hbytes : streamed sha256 (segments.flatMap Segment.bytes) c = Chain.bytes (chainOf segments) := by
    rw [streamed, if_neg (by simp [hopen]), if_pos hs, bytes_chainOf]
  have hopen' : (receive (Chain.bytes (chainOf segments)) c).closed = false := hopen
  have hs' : (receive (Chain.bytes (chainOf segments)) c).own.state = .streaming := hs
  have hheld := held_enter (held_receive (Chain.bytes (chainOf segments)) h.toHeld hopen)
  rw [arrive, hbytes, onData, if_neg (by simp [hopen']), if_pos hs']
  have hdata := keeps_onBinaryData hdeliver (wf_chainOf segments) hheld h.line (h.noDone hopen) hs
  have hkeeps : Keeps c (onBinaryData deliver (chainOf segments) (receive (Chain.bytes (chainOf segments)) c).enter).1 :=
    ⟨hdata.flowing, hdata.stays, hdata.waits, hdata.answers⟩
  exact hkeeps.trans (keeps_leave hkeeps.flowing)

/-- A call in the text phase, the stream beginning with it or not. -/
theorem keeps_arrive_text (sha256 : List Byte → List Byte) (segments : List Segment) (h : Flowing c)
    (hopen : c.closed = false) (hs : c.own.state ≠ .streaming) : Keeps c (arrive sha256 deliver segments c) := by
  have hleave : ∀ d : Component CramAuth, Keeps c d → Keeps c d.leave := fun d hd =>
    hd.trans (keeps_leave hd.flowing)
  have hbytes : streamed sha256 (segments.flatMap Segment.bytes) c =
      (scan sha256 (segments.flatMap Segment.bytes) c.enter).2.rest := by
    rw [streamed, if_neg (by simp [hopen]), if_neg hs]
    exact behindStart_scan sha256 _ h.line hs
  rw [arrive, hbytes]
  generalize hrest : (scan sha256 (segments.flatMap Segment.bytes) c.enter).2.rest = rest
  have hopen' : (receive rest c).closed = false := hopen
  have hs' : (receive rest c).own.state ≠ .streaming := hs
  have hheld : Held rest (receive rest c).enter := held_enter (held_receive rest h.toHeld hopen)
  have henter : (receive rest c).enter = receive rest c.enter := rfl
  have hoff : OffStream rest (receive rest c) (scan sha256 (segments.flatMap Segment.bytes) (receive rest c).enter).1 :=
    scan_keeps sha256 (fun _ _ => offStream_update _) (fun _ _ _ => offStream_fail _ _)
      ⟨hheld, rfl, rfl, rfl, id, id, id⟩
  have hline := scan_lineBuffer sha256 (segments.flatMap Segment.bytes) (c := (receive rest c).enter) h.line
  have hloop := textLoop_scan sha256 deliver (wf_chainOf segments) (Nat.le_refl _) (c := (receive rest c).enter) h.line
  have hkeeps : rest = [] → Keeps c (scan sha256 (segments.flatMap Segment.bytes) (receive rest c).enter).1 := by
    rintro rfl
    rw [receive_nil] at hoff hline ⊢
    exact keeps_offStream h hoff hline fun hst => absurd hst hs
  have hend : (scan sha256 (segments.flatMap Segment.bytes) (receive rest c).enter).2.rest = rest := by
    rw [henter, scan_receive]
    exact hrest
  rw [onData, if_neg (by simp [hopen']), if_neg hs', onTextData]
  dsimp only
  rw [bytes_chainOf] at hloop
  cases hscan : scan sha256 (segments.flatMap Segment.bytes) (receive rest c).enter with
  | mk c' e =>
    rw [hscan] at hoff hline hloop hkeeps hend
    cases e with
    | more =>
      rw [hloop]
      exact hleave _ (hkeeps hend.symm)
    | overflow =>
      rw [hloop]
      exact hleave _ (hkeeps hend.symm)
    | streaming rest' =>
      obtain ⟨data, hwf, hdata, hremaining⟩ := hloop
      obtain rfl : rest' = rest := hend
      rw [hremaining, handleRemainingData]
      split
      · rename_i hempty
        exact hleave _ (hkeeps (hdata.symm.trans ((Chain.empty_iff hwf).mp hempty)))
      · have hheld' : Held (Chain.bytes data) c' := by
          rw [hdata]
          exact hoff.held
        have hcall := keeps_onBinaryData hdeliver hwf hheld' hline (hoff.noDone (h.text hs).noDone)
          (scan_streaming sha256 hscan)
        exact hleave _ ⟨hcall.flowing, fun hst => absurd hst hs, fun hw => hcall.waits (hoff.waits hw),
          fun ha => hcall.answers (hoff.answers ha)⟩

/-- **A delivery of the socket**, in either phase. -/
theorem keeps_arrive (sha256 : List Byte → List Byte) (segments : List Segment) (h : Flowing c) :
    Keeps c (arrive sha256 deliver segments c) := by
  cases hopen : c.closed with
  | true =>
    rw [arrive, streamed, if_pos hopen, receive_nil, onData, if_pos hopen]
    exact Keeps.refl h
  | false =>
    by_cases hs : c.own.state = .streaming
    · exact keeps_arrive_streaming hdeliver sha256 segments h hopen hs
    · exact keeps_arrive_text hdeliver sha256 segments h hopen hs

end Deliver

/-- **The downstream**, whatever it does. -/
theorem keeps_downstream (sha256 : List Byte → List Byte) (depth : ℕ) (hs : c.suspended = false)
    (h : Flowing c) : Keeps c (downstream sha256 depth c) := by
  have hscript : ∀ script (d : Component CramAuth), Flowing d → Keeps d (setScript script d) := fun _ d hd =>
    ⟨⟨⟨held_congr hd.toHeld rfl rfl rfl rfl id, hd.line, fun hns =>
      ⟨(hd.text hns).streaming, (hd.text hns).pending, (hd.text hns).donePending, (hd.text hns).noDone⟩⟩,
      hd.drained⟩, id, id, id⟩
  refine downstream_relates sha256 (fun c c' => Flowing c → Keeps c c') (fun c => c.suspended = false)
    (fun _ => Keeps.refl) (fun _ _ _ h1 h2 ha => (h1 ha).trans (h2 (h1 ha).flowing)) (fun script d hd h => ?_)
    (fun d h => keeps_observe h fun hf => absurd hf Bool.false_ne_true) (fun n _ h => keeps_consume n h)
    (fun _ h => keeps_suspend h) (fun _ hdeliver _ hs h => keeps_resume hdeliver h hs)
    (fun _ hdeliver segments _ h => keeps_arrive hdeliver sha256 segments h) depth hs h
  have hset := hscript script d h
  exact hset.trans (keeps_observe hset.flowing fun _ => hd)

/-- **`OnDone`** is answered, or deferred while suspended. -/
theorem answered_onDone {deliver : Component CramAuth → Component CramAuth}
    (hdeliver : ∀ c : Component CramAuth, c.suspended = false → Flowing c → Keeps c (deliver c))
    (h : Flowing c) (hw : Waits c) : Answered (onDone deliver c) := by
  rw [onDone, Component.guarded]
  cases hopen : c.closed with
  | true => exact ⟨h, hw, Or.inl (h.closed.symm.trans hopen)⟩
  | false =>
    have hleave : ∀ d : Component CramAuth, Answered d → Answered d.leave := fun d hd =>
      ⟨(keeps_leave hd.flowing).flowing, (keeps_leave hd.flowing).waits hd.waits,
        (keeps_leave hd.flowing).answers hd.answers⟩
    have henter := flowing_enter h
    simp only [Bool.false_eq_true, if_false]
    refine hleave _ ?_
    split
    · exact answered_fail _ _ henter hw
    · rename_i hstate
      have hst : c.own.state = .streaming := not_not.mp hstate
      split
      · rename_i hsus
        have hdefer : Flowing c.enter.deferOnDone :=
          flowing_congr henter (held_congr henter.toHeld rfl rfl rfl rfl id) rfl rfl
            (fun hns => absurd hst hns) rfl id
        exact ⟨hdefer, fun _ => hsus, Or.inr rfl⟩
      · rename_i hsus
        have hsus' : c.suspended = false := Bool.eq_false_iff.mpr hsus
        have hd : c.donePending = false := by
          by_contra hd
          rw [hw (Bool.not_eq_false _ ▸ hd)] at hsus'
          simp at hsus'
        exact (answered_flushAndComplete hdeliver henter hsus' hd hst).1

/-- `OnError`. -/
theorem keeps_propagateError (e : Error) (h : Flowing c) : Keeps c (c.propagateError e) := by
  rw [Component.propagateError, Component.guarded]
  cases hopen : c.closed with
  | true => exact Keeps.refl h
  | false =>
    have henter := flowing_enter h
    have hf : c.enter.finalized = false := h.closed.symm.trans hopen
    have he := Component.ended_error (c := c.enter) hopen hf e
    have hnil : c.signals = [] := by
      have hs := h.signals
      rw [← h.closed, hopen] at hs
      exact List.length_eq_zero_iff.mp hs
    have hsig : (c.enter.emitError e).requestClose.signals = [.error e] := by
      rw [he.signals, Component.enter_signals, hnil, List.nil_append]
    have hheld : Held [] (c.enter.emitError e).requestClose := by
      refine ⟨?_, ?_, ?_, ?_, ?_, fun _ => he.closed, ?_, ?_⟩
      · rw [he.own]; exact h.wfStreaming
      · rw [he.own]; exact h.wfPending
      · rw [he.closed]
        exact fun hc => absurd hc (by simp)
      · rw [he.own]; exact h.moments
      · rw [he.closed, he.finalized]
      · rw [hsig, he.finalized]
        rfl
      · rw [hsig]
        exact fun hd => absurd hd (by simp)
    have hoff : OffStream [] c (c.enter.emitError e).requestClose :=
      ⟨hheld, congrArg streamOf he.own, he.suspendCount, he.donePending, fun _ => he.finalized,
        fun _ => he.closed, fun _ => by rw [hsig]; simp⟩
    have hkeeps := keeps_offStream h hoff (by rw [he.own]; exact h.line) (by rw [he.own]; exact id)
    simp only [Bool.false_eq_true, if_false]
    exact hkeeps.trans (keeps_leave hkeeps.flowing)

/-- `DoClose`, of a closed component. -/
theorem keeps_doClose (h : Flowing c) (hc : c.closed = true) : Keeps c (doClose c) := by
  have hnil := Chain.bytes_cleared
  refine ⟨⟨⟨⟨Chain.wf_cleared _, Chain.wf_cleared _, fun hf => absurd (hc.symm.trans hf) (by simp), h.moments,
    h.closed, h.scheduled, h.signals, fun hd => ⟨hnil _, hnil _, (h.done hd).2.2⟩⟩, List.not_mem_nil,
    fun hns => ⟨hnil _, hnil _, (h.text hns).donePending, (h.text hns).noDone⟩⟩, fun _ _ => hnil _⟩, id, id, id⟩

/-- `Subscribe`. -/
theorem keeps_subscribe (p : Subscription) (h : Flowing c) : Keeps c (subscribe p c) := by
  refine keeps_offStream h (subscribe_preserves (fun _ _ => offStream_update _) (fun _ _ _ => offStream_fail _ _)
    p (offStream_refl h.toHeld)) ?_ fun hs => ?_
  · rw [subscribe_eq]
    split
    · rw [sendPendingSubscription_lineBuffer]
      exact h.line
    · exact h.line
  · rw [subscribe_eq, if_neg (by simp [hs])]
    exact hs

/-- `StartStreaming`. -/
theorem keeps_startStreaming (h : Flowing c) : Keeps c (startStreaming c) := by
  refine keeps_offStream h (startStreaming_preserves (fun _ _ => offStream_update _)
    (offStream_refl h.toHeld)) ?_ fun hs => ?_
  · rw [startStreaming_eq]
    split
    · rw [begin_eq]
      exact h.line
    · exact h.line
  · rw [startStreaming_eq, if_neg (by simp [hs])]
    exact hs

/-! ### Runs -/

/-- The inputs of a component that nobody else closes. -/
def Input.runs : Input → Bool
  | .requestClose => false
  | .data _ _ | .subscribe _ | .startStreaming | .done _ | .error _ | .suspend | .resume _ | .runClose => true

/-- The end of the stream. -/
def Input.ends : Input → Bool
  | .done _ => true
  | _ => false

/-- **One input.** -/
theorem keeps_step (sha256 : List Byte → List Byte) (depth : ℕ) {i : Input} (hi : i.runs = true)
    (h : Flowing c) (hw : Waits c) :
    Flowing (step sha256 depth c i) ∧ Waits (step sha256 depth c i) ∧
      (Answers c ∨ i.ends = true → Answers (step sha256 depth c i)) := by
  have hdeliver : ∀ c : Component CramAuth, c.suspended = false → Flowing c →
      Keeps c (downstream sha256 depth c) := fun c hs hc => keeps_downstream sha256 depth hs hc
  have hscript : ∀ script, Keeps c (setScript script c) := fun script =>
    keeps_offStream h (offStream_update _ rfl (offStream_refl h.toHeld)) h.line id
  have hof : ∀ {d : Component CramAuth}, Keeps c d → i.ends = false →
      Flowing d ∧ Waits d ∧ (Answers c ∨ i.ends = true → Answers d) := fun hk he =>
    ⟨hk.flowing, hk.waits hw, fun ha => hk.answers (ha.resolve_right (by simp [he]))⟩
  cases i with
  | data segments script =>
    have hset := hscript script
    exact hof (hset.trans (keeps_arrive hdeliver sha256 segments hset.flowing)) rfl
  | subscribe p => exact hof (keeps_subscribe p h) rfl
  | startStreaming => exact hof (keeps_startStreaming h) rfl
  | done script =>
    have hset := hscript script
    have hans := answered_onDone hdeliver hset.flowing (hset.waits hw)
    exact ⟨hans.flowing, hans.waits, fun _ => hans.answers⟩
  | error e => exact hof (keeps_propagateError e h) rfl
  | suspend => exact hof (keeps_suspend h) rfl
  | resume script =>
    have hset := hscript script
    rw [step]
    split
    · rename_i hs
      exact hof (hset.trans (keeps_resume hdeliver hset.flowing hs)) rfl
    · exact hof (Keeps.refl h) rfl
  | requestClose => simp [Input.runs] at hi
  | runClose =>
    rw [step]
    split
    · rename_i hs
      exact hof (keeps_doClose h (h.scheduled (Or.inr hs))) rfl
    · exact hof (Keeps.refl h) rfl

theorem flowing_new (apiKey dataset : List Byte) : Flowing (newCramAuth apiKey dataset) := by
  have hnil : Chain.bytes (newCramAuth apiKey dataset).own.streamingChain = [] := BufferChain.bytes_nil id none
  have hnil' : Chain.bytes (newCramAuth apiKey dataset).own.pendingChain = [] := BufferChain.bytes_nil id none
  refine ⟨⟨⟨Chain.wf_empty none, Chain.wf_empty none, fun _ => ?_, by simp [newCramAuth], rfl,
    by simp [newCramAuth], rfl, by simp [newCramAuth]⟩, by simp [newCramAuth], fun _ => ⟨hnil, hnil', rfl, ?_⟩⟩,
    fun _ _ => hnil'⟩
  · rw [hnil, hnil']
    rfl
  · simp [newCramAuth]

theorem keeps_run (sha256 : List Byte → List Byte) (depth : ℕ) {inputs : List Input}
    (hi : ∀ i ∈ inputs, i.runs = true) (h : Flowing c) (hw : Waits c) :
    Flowing (Runs.run (step sha256 depth) c inputs) ∧ Waits (Runs.run (step sha256 depth) c inputs) ∧
      ((Answers c ∨ ∃ i ∈ inputs, i.ends = true) → Answers (Runs.run (step sha256 depth) c inputs)) := by
  induction inputs generalizing c with
  | nil => exact ⟨h, hw, fun ha => ha.resolve_right (by simp)⟩
  | cons i inputs ih =>
    obtain ⟨h1, h2, h3⟩ := keeps_step sha256 depth (hi i List.mem_cons_self) h hw
    obtain ⟨h4, h5, h6⟩ := ih (fun j hj => hi j (List.mem_cons_of_mem _ hj)) h1 h2
    refine ⟨h4, h5, fun ha => h6 ?_⟩
    rcases ha with ha | ⟨j, hj, he⟩
    · exact Or.inl (h3 (Or.inl ha))
    · rcases List.mem_cons.mp hj with rfl | hj
      · exact Or.inl (h3 (Or.inr he))
      · exact Or.inr ⟨j, hj, he⟩

/-- **The stream is conserved.**  In every run of a component that nobody else closes, whatever the
downstream does: as long as it is open, the bytes consumed, those in the streaming chain and those in the
pending chain are the bytes that the socket delivered since streaming began, in order, at its end and at every
moment; no `OnData` of the downstream begins while suspended; after `OnDone`, when not suspended, exactly one
terminal signal was given; and it was `OnDone` only if both chains are empty and every byte was consumed. -/
theorem stream_conserved (sha256 : List Byte → List Byte) (apiKey dataset : List Byte) (depth : ℕ)
    (inputs : List Input) (hi : ∀ i ∈ inputs, i.runs = true) :
    let c := Runs.run (step sha256 depth) (newCramAuth apiKey dataset) inputs
    (c.closed = false → Conserved c.own) ∧ (∀ m ∈ c.own.moments, m.Good) ∧
      ((∃ i ∈ inputs, i.ends = true) → c.suspended = false → c.signals.length = 1) ∧
      (.done ∈ c.signals → c.own.streamingChain.empty = true ∧ c.own.pendingChain.empty = true ∧
        c.own.consumed = c.own.received) := by
  intro c
  obtain ⟨hflow, hwaits, hanswers⟩ := keeps_run sha256 depth hi (flowing_new apiKey dataset)
    (fun hd => absurd hd Bool.false_ne_true)
  refine ⟨fun hc => ?_, hflow.moments, fun hends hs => ?_, fun hd => ?_⟩
  · have hconserved := hflow.conserved hc
    rw [List.append_nil] at hconserved
    exact hconserved
  · rcases hanswers (Or.inr hends) with hf | hd
    · have hsig := hflow.signals
      rw [hf, if_pos rfl] at hsig
      exact hsig
    · exact absurd ((hwaits hd).symm.trans hs) (by simp)
  · obtain ⟨h1, h2, h3⟩ := hflow.done hd
    exact ⟨(Chain.empty_iff hflow.wfStreaming).mpr h1, (Chain.empty_iff hflow.wfPending).mpr h2, h3⟩

theorem length_handshake : (ascii "lsg|0.1\ncram=a\nsuccess=1|\nDBN").length ≤ Segment.kSize := by decide

/-- The stream begins in the middle of a call; the downstream takes one byte and suspends; more bytes and the end
arrive; then it takes the rest. -/
def pausedStream : List Input :=
  [.subscribe { symbols := ascii "SPY", schema := ascii "trades", stypeIn := ascii "raw_symbol" }, .startStreaming,
    .data [textSegment "lsg|0.1\ncram=a\nsuccess=1|\nDBN" length_handshake] [[.consume (some 1), .suspend]],
    call "xy", .done [], .resume [[.consume none]]]

theorem stream_conserved_paused :
    let c := Runs.run (step zeroDigest 1) (newCramAuth (ascii "db-key") (ascii "XNAS.ITCH")) pausedStream
    c.signals.length = 1 ∧ (∀ m ∈ c.own.moments, m.Good) ∧ c.own.received = ascii "DBNxy" := by
  have h := stream_conserved zeroDigest (ascii "db-key") (ascii "XNAS.ITCH") 1 pausedStream (by decide)
  exact ⟨h.2.2.1 ⟨.done [], by simp [pausedStream], rfl⟩ (by decide +kernel), h.2.1, by decide +kernel⟩

end DbnPipe.Live
