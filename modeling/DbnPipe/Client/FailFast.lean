import DbnPipe.Client.StreamingClient
import DbnPipe.Library.Journal
import DbnPipe.Library.Runs

/-!
# The pipeline is never called in the wrong state

`Pipeline` ends the process when `Connect`, `MarkReady` or `Start` is called out of order.  The flags of the client
keep it from doing so, and the request is sent once at most.

* `Signalled` — **all that terminal signals can do** to the client;
* `InStep` — the invariant: the flags `connected_`, `ready_`, `started_` and the state of the pipeline in step;
* `InStep.step` — every event keeps it;
* `never_terminates` — **no run terminates the process**, and `SendRequest` comes once at most, after the ready
  callback.
-/

namespace DbnPipe.Client

open Journal

namespace StreamingClient

/-! ### Terminal signals -/

/-- What an end writes into the journal. -/
def Ending (a : Act) : Prop := a = .state .error ∨ a = .state .done ∨ a = .state .stopping ∨ a = .chainClose

/-- The client after terminal signals, or `Stop`: its state, its sink, its pipeline and the deferred functions may
differ. -/
def Signalled (c c' : StreamingClient) : Prop :=
  ∃ state sinkValid pipeline deferred extra,
    c' = { c with
      state := state, sinkValid := sinkValid, pipeline := pipeline, deferred := deferred,
      journal := c.journal ++ extra } ∧
    (pipeline = c.pipeline ∨ c.pipeline ≠ none ∧ pipeline = some .tornDown) ∧ ∀ a ∈ extra, Ending a

theorem Signalled.refl (c : StreamingClient) : Signalled c c :=
  ⟨c.state, c.sinkValid, c.pipeline, c.deferred, [], by rw [List.append_nil], Or.inl rfl,
    fun a ha => absurd ha List.not_mem_nil⟩

theorem Signalled.trans {c c' c'' : StreamingClient} (h : Signalled c c') (h' : Signalled c' c'') :
    Signalled c c'' := by
  obtain ⟨state, sinkValid, pipeline, deferred, extra, rfl, hp, he⟩ := h
  obtain ⟨state', sinkValid', pipeline', deferred', extra', rfl, hp', he'⟩ := h'
  refine ⟨state', sinkValid', pipeline', deferred', extra ++ extra', ?_, ?_, ?_⟩
  · rw [List.append_assoc]
  · rcases hp' with rfl | ⟨hne, rfl⟩
    · exact hp
    · rcases hp with rfl | ⟨hne', rfl⟩
      · exact Or.inr ⟨hne, rfl⟩
      · exact Or.inr ⟨hne', rfl⟩
  · exact fun a ha => (List.mem_append.mp ha).elim (he a) (he' a)

theorem Signalled.journal {c c' : StreamingClient} (h : Signalled c c') :
    ∃ extra, c'.journal = c.journal ++ extra := by
  obtain ⟨_, _, _, _, extra, rfl, -, -⟩ := h
  exact ⟨extra, rfl⟩

/-- Assigning an end state and tearing the pipeline down. -/
theorem signalled_finish (c : StreamingClient) {s : ClientState} (hs : Ending (.state s)) (told : List Deferred) :
    Signalled c (c.finish s told) := by
  have hsingle : ∀ a ∈ [Act.state s], Ending a := fun a ha => List.mem_singleton.mp ha ▸ hs
  have hpair : ∀ a ∈ [Act.state s, .chainClose], Ending a := by
    intro a ha
    rcases List.mem_pair.mp ha with rfl | rfl
    · exact hs
    · exact Or.inr (Or.inr (Or.inr rfl))
  cases hp : c.pipeline with
  | none =>
      exact ⟨s, c.sinkValid.map fun _ => false, none, c.deferred ++ told, [.state s],
        by simp only [finish, doTeardown, invalidate, setState, record, hp], Or.inl hp.symm, hsingle⟩
  | some p =>
      cases p with
      | tornDown =>
          exact ⟨s, c.sinkValid.map fun _ => false, some .tornDown, c.deferred ++ told, [.state s],
            by simp only [finish, doTeardown, invalidate, setState, record, hp], Or.inl hp.symm, hsingle⟩
      | created | connecting | ready | started =>
          exact ⟨s, (c.sinkValid.map fun _ => false).map fun _ => false, some .tornDown, c.deferred ++ told,
            [.state s, .chainClose], by simp [finish, doTeardown, invalidate, setState, record, hp],
            Or.inr ⟨by rw [hp]; exact Option.some_ne_none _, rfl⟩, hpair⟩

theorem signalled_handleError (c : StreamingClient) (e : Error) : Signalled c (c.handleError e) := by
  rw [handleError]
  split
  · exact .refl c
  · exact signalled_finish c (Or.inl rfl) _

theorem signalled_handleComplete (c : StreamingClient) : Signalled c c.handleComplete := by
  rw [handleComplete]
  split
  · exact .refl c
  · exact signalled_finish c (Or.inr (Or.inl rfl)) _

theorem signalled_onSignal (c : StreamingClient) (s : Signal) : Signalled c (c.onSignal s) := by
  by_cases hvalid : c.sinkValid = some true
  · cases s with
    | error e =>
        rw [onSignal, if_pos hvalid]
        exact signalled_handleError c e
    | done =>
        rw [onSignal, if_pos hvalid]
        exact signalled_handleComplete c
  · rw [onSignal.eq_def, if_neg hvalid]
    exact .refl c

theorem signalled_onSignals (during : List Signal) (c : StreamingClient) : Signalled c (c.onSignals during) := by
  induction during generalizing c with
  | nil => exact .refl c
  | cons s during ih => exact (signalled_onSignal c s).trans (ih (c.onSignal s))

/-! ### The invariant -/

/-- `SendRequest` stands after the ready callback. -/
def AfterReady (before : List Act) (a : Act) : Prop := a = .sendRequest → .readyCallback ∈ before

/-- The flags of the client and the state of the pipeline are in step. -/
structure InStep (c : StreamingClient) : Prop where
  alive : c.terminated = false ∧ .terminate ∉ c.journal
  unbuilt : c.connected = false → c.pipeline = none
  unready : c.ready = false → c.started = false ∧
    (c.pipeline = none ∨ c.pipeline = some .connecting ∨ c.pipeline = some .tornDown)
  waiting : c.mayBeReady = true → c.ready = false ∧ c.pipeline ≠ none
  unsent : c.ready = true → c.started = false → c.pipeline = some .ready ∨ c.pipeline = some .tornDown
  sent : c.started = true → c.pipeline = some .started ∨ c.pipeline = some .tornDown
  once : c.journal.count .sendRequest = 0 ∨ c.started = true ∧ c.journal.count .sendRequest = 1
  announced : c.ready = true → .readyCallback ∈ c.journal
  order : Justified AfterReady c.journal

theorem inStep_initial (handlers : Handlers) (hostname : String) : InStep { handlers, hostname } where
  alive := ⟨rfl, List.not_mem_nil⟩
  unbuilt _ := rfl
  unready _ := ⟨rfl, Or.inl rfl⟩
  waiting h := absurd h Bool.false_ne_true
  unsent h := absurd h Bool.false_ne_true
  sent h := absurd h Bool.false_ne_true
  once := Or.inl rfl
  announced h := absurd h Bool.false_ne_true
  order := justified_nil _

/-- An entry that is no request and no end of the process. -/
def Harmless (a : Act) : Prop := a ≠ .sendRequest ∧ a ≠ .terminate

theorem Ending.harmless {a : Act} (h : Ending a) : Harmless a := by
  rcases h with rfl | rfl | rfl | rfl <;> exact ⟨Act.noConfusion, Act.noConfusion⟩

/-- **Harmless entries keep the invariant.** -/
theorem InStep.extend {c : StreamingClient} (h : InStep c) {extra : List Act} (hextra : ∀ a ∈ extra, Harmless a) :
    InStep { c with journal := c.journal ++ extra } := by
  have hcount : extra.count .sendRequest = 0 :=
    List.count_eq_zero.mpr fun hmem => (hextra _ hmem).1 rfl
  refine ⟨⟨h.alive.1, ?_⟩, h.unbuilt, h.unready, h.waiting, h.unsent, h.sent, ?_, ?_, ?_⟩
  · rw [List.mem_append, not_or]
    exact ⟨h.alive.2, fun hmem => (hextra _ hmem).2 rfl⟩
  · rw [List.count_append, hcount, Nat.add_zero]
    exact h.once
  · exact fun hready => List.mem_append_left _ (h.announced hready)
  · exact h.order.append fun a ha before heq => absurd heq (hextra a ha).1

theorem InStep.record {c : StreamingClient} (h : InStep c) {a : Act} (ha : Harmless a) : InStep (c.record a) :=
  h.extend fun _ hb => List.mem_singleton.mp hb ▸ ha

/-- The pipeline may be torn down at any time. -/
theorem InStep.setPipeline {c : StreamingClient} (h : InStep c) (hbuilt : c.pipeline ≠ none) :
    InStep { c with pipeline := some .tornDown } where
  alive := h.alive
  unbuilt hc := absurd (h.unbuilt hc) hbuilt
  unready hr := ⟨(h.unready hr).1, Or.inr (Or.inr rfl)⟩
  waiting hw := ⟨(h.waiting hw).1, Option.some_ne_none _⟩
  unsent _ _ := Or.inr rfl
  sent _ := Or.inr rfl
  once := h.once
  announced := h.announced
  order := h.order

/-- **Terminal signals keep the invariant.** -/
theorem InStep.signalled {c c' : StreamingClient} (h : InStep c) (hs : Signalled c c') : InStep c' := by
  obtain ⟨state, sinkValid, pipeline, deferred, extra, rfl, hp, he⟩ := hs
  have hextended := h.extend fun a ha => (he a ha).harmless
  rcases hp with rfl | ⟨hne, rfl⟩
  · exact ⟨hextended.alive, hextended.unbuilt, hextended.unready, hextended.waiting, hextended.unsent, hextended.sent,
      hextended.once, hextended.announced, hextended.order⟩
  · have htorn := hextended.setPipeline hne
    exact ⟨htorn.alive, htorn.unbuilt, htorn.unready, htorn.waiting, htorn.unsent, htorn.sent, htorn.once,
      htorn.announced, htorn.order⟩

/-! ### The operations -/

theorem harmless_state (s : ClientState) : Harmless (.state s) := ⟨Act.noConfusion, Act.noConfusion⟩

theorem InStep.setState {c : StreamingClient} (h : InStep c) (s : ClientState) : InStep (c.setState s) := by
  have := h.record (harmless_state s)
  exact ⟨this.alive, this.unbuilt, this.unready, this.waiting, this.unsent, this.sent, this.once, this.announced,
    this.order⟩

theorem InStep.pipelineSuspend {c : StreamingClient} (h : InStep c) : InStep c.pipelineSuspend := by
  rw [StreamingClient.pipelineSuspend]
  split
  · exact h
  · exact h
  · exact h.record ⟨Act.noConfusion, Act.noConfusion⟩

theorem InStep.pipelineResume {c : StreamingClient} (h : InStep c) : InStep c.pipelineResume := by
  rw [StreamingClient.pipelineResume]
  split
  · exact h
  · exact h
  · exact h.record ⟨Act.noConfusion, Act.noConfusion⟩

theorem InStep.built {c : StreamingClient} (h : InStep c) (hready : c.ready = true) : c.pipeline ≠ none := by
  intro hnone
  cases hs : c.started with
  | false => rcases h.unsent hready hs with hp | hp <;> exact Option.some_ne_none _ (hp.symm.trans hnone)
  | true => rcases h.sent hs with hp | hp <;> exact Option.some_ne_none _ (hp.symm.trans hnone)

/-- The client once its new pipeline connects. -/
def connecting (c : StreamingClient) : StreamingClient :=
  { c with
    connected := true, sinkValid := some true, pipeline := some .connecting, mayBeReady := true, state := .connecting
    journal := c.journal ++ ((if 0 < c.suspendCount then [.chainSuspend] else []) ++
      [.state .connecting, .chainConnect]) }

/-- The pipeline that `Connect` calls is new. -/
theorem connect_built (c : StreamingClient) (during : List Signal) :
    (c.buildPipeline.setState .connecting).pipelineConnect during = c.connecting.onSignals during := by
  rw [buildPipeline, connecting]
  split
  · simp [StreamingClient.pipelineSuspend, pipelineConnect, StreamingClient.setState, StreamingClient.record]
  · simp [pipelineConnect, StreamingClient.setState, StreamingClient.record]

/-- **`Connect`** connects a new pipeline: nobody has used it before. -/
theorem InStep.connect {c : StreamingClient} (h : InStep c) (during : List Signal) : InStep (c.connect during) := by
  rw [StreamingClient.connect]
  split
  · exact h
  · split
    · exact h.signalled (signalled_handleError c _)
    · rename_i hguard hset
      rw [Bool.or_eq_true, not_or, Bool.not_eq_true, Bool.not_eq_true] at hguard
      have hready : c.ready = false := by
        by_contra hne
        exact h.built (eq_true_of_ne_false hne) (h.unbuilt hguard.2)
      have hstarted := (h.unready hready).1
      have hharmless : ∀ a ∈ (if 0 < c.suspendCount then [Act.chainSuspend] else []) ++
          [.state .connecting, .chainConnect], Harmless a := by
        intro a ha
        rw [List.mem_append, List.mem_pair] at ha
        rcases ha with ha | rfl | rfl
        · split at ha
          · rw [List.mem_singleton.mp ha]
            exact ⟨Act.noConfusion, Act.noConfusion⟩
          · exact absurd ha List.not_mem_nil
        · exact ⟨Act.noConfusion, Act.noConfusion⟩
        · exact ⟨Act.noConfusion, Act.noConfusion⟩
      have hextended := h.extend hharmless
      have hconnecting : InStep c.connecting :=
        { alive := hextended.alive
          unbuilt := fun hc => absurd hc Bool.true_eq_false.mp
          unready := fun _ => ⟨hstarted, Or.inr (Or.inl rfl)⟩
          waiting := fun _ => ⟨hready, Option.some_ne_none _⟩
          unsent := fun hr => absurd (hready.symm.trans hr) Bool.false_ne_true
          sent := fun hs => absurd (hstarted.symm.trans hs) Bool.false_ne_true
          once := hextended.once
          announced := hextended.announced
          order := hextended.order }
      rw [connect_built]
      exact hconnecting.signalled (signalled_onSignals during _)

theorem InStep.connectHost {c : StreamingClient} (h : InStep c) (addr : Bool) (during : List Signal) :
    InStep (c.connectHost addr during) := by
  rw [StreamingClient.connectHost]
  split
  · exact h
  · split
    · exact h.signalled (signalled_handleError c _)
    · split
      · exact h.signalled (signalled_handleError c _)
      · exact h.connect during

/-- **The request is sent** by a client that is ready and has not started: its pipeline is ready, or torn down. -/
theorem InStep.send {c : StreamingClient} (h : InStep c) (hready : c.ready = true) (hstarted : c.started = false)
    (during : List Signal) : InStep (c.send during) := by
  have hzero : c.journal.count .sendRequest = 0 := by
    rcases h.once with hzero | ⟨hs, -⟩
    · exact hzero
    · exact absurd (hstarted.symm.trans hs) Bool.false_ne_true
  have hwaiting : c.mayBeReady = false := by
    by_contra hne
    exact absurd ((h.waiting (eq_true_of_ne_false hne)).1.symm.trans hready) Bool.false_ne_true
  have hsend : ∀ c', Signalled c' (c.pipelineStart during) → InStep { c' with started := true } →
      InStep (c.send during) := by
    intro c' hs hc'
    have hs' : Signalled { c' with started := true } { c.pipelineStart during with started := true } := by
      obtain ⟨state, sinkValid, pipeline, deferred, extra, heq, hp, he⟩ := hs
      exact ⟨state, sinkValid, pipeline, deferred, extra, by rw [heq], hp, he⟩
    exact (hc'.signalled hs').setState .streaming
  rcases h.unsent hready hstarted with hp | hp
  · refine hsend ({ c with pipeline := some .started }.record .sendRequest) ?_ ?_
    · rw [pipelineStart, hp]
      exact signalled_onSignals during _
    · refine ⟨⟨h.alive.1, ?_⟩, fun hc => ?_, fun hr => ?_, fun hw => ?_, fun _ hs => ?_, fun _ => Or.inl rfl, ?_, ?_, ?_⟩
      · exact fun hmem => h.alive.2 ((List.mem_append.mp hmem).resolve_right fun hs => by simp at hs)
      · exact absurd (hp.symm.trans (h.unbuilt hc)) (Option.some_ne_none _)
      · exact absurd (hready.symm.trans hr) Bool.true_eq_false.mp
      · exact absurd (hwaiting.symm.trans hw) Bool.false_ne_true
      · exact absurd hs Bool.true_eq_false.mp
      · refine Or.inr ⟨rfl, ?_⟩
        rw [StreamingClient.record, List.count_append, hzero]
        rfl
      · exact fun _ => List.mem_append_left _ (h.announced hready)
      · exact justified_concat.mpr ⟨h.order, fun _ => h.announced hready⟩
  · refine hsend c ?_ ?_
    · rw [pipelineStart, hp]
      exact .refl c
    · exact ⟨h.alive, h.unbuilt, fun hr => absurd (hready.symm.trans hr) Bool.true_eq_false.mp,
        fun hw => absurd (hwaiting.symm.trans hw) Bool.false_ne_true, fun _ hs => absurd hs Bool.true_eq_false.mp,
        fun _ => Or.inr hp, Or.inl hzero, h.announced, h.order⟩

theorem InStep.start {c : StreamingClient} (h : InStep c) (during : List Signal) : InStep (c.start during) := by
  rw [StreamingClient.start]
  split
  · exact h
  · split
    · exact h.signalled (signalled_handleError c _)
    · have hrequested : InStep { c with startRequested := true } :=
        ⟨h.alive, h.unbuilt, h.unready, h.waiting, h.unsent, h.sent, h.once, h.announced, h.order⟩
      simp only
      split
      · rename_i hguard
        rw [Bool.and_eq_true, Bool.not_eq_true'] at hguard
        exact hrequested.send hguard.1 hguard.2 during
      · exact hrequested

theorem InStep.stop {c : StreamingClient} (h : InStep c) : InStep c.stop := by
  rw [StreamingClient.stop]
  split
  · exact h.record ⟨Act.noConfusion, Act.noConfusion⟩
  · have hfinish := h.signalled (signalled_finish c (Or.inr (Or.inr (Or.inl rfl))) [])
    exact hfinish.record ⟨Act.noConfusion, Act.noConfusion⟩

theorem InStep.suspend {c : StreamingClient} (h : InStep c) : InStep c.suspend := by
  have hcount : InStep { c with suspendCount := c.suspendCount + 1 } :=
    ⟨h.alive, h.unbuilt, h.unready, h.waiting, h.unsent, h.sent, h.once, h.announced, h.order⟩
  rw [StreamingClient.suspend]
  simp only
  split
  · exact hcount.pipelineSuspend
  · exact hcount

theorem InStep.resume {c : StreamingClient} (h : InStep c) : InStep c.resume := by
  have hcount : InStep { c with suspendCount := c.suspendCount - 1 } :=
    ⟨h.alive, h.unbuilt, h.unready, h.waiting, h.unsent, h.sent, h.once, h.announced, h.order⟩
  rw [StreamingClient.resume]
  simp only
  split
  · exact hcount.pipelineResume
  · exact hcount

theorem InStep.call {c : StreamingClient} (h : InStep c) (x : Call) : InStep (c.call x) := by
  cases x with
  | setRequest =>
      exact ⟨h.alive, h.unbuilt, h.unready, h.waiting, h.unsent, h.sent, h.once, h.announced, h.order⟩
  | connectHost addr during => exact h.connectHost addr during
  | connect during => exact h.connect during
  | start during => exact h.start during
  | stop => exact h.stop
  | close => exact h.stop
  | suspend => exact h.suspend
  | resume => exact h.resume

/-- **The ready callback** finds the pipeline connecting, or torn down. -/
theorem InStep.markReady {c : StreamingClient} (h : InStep c) (hready : c.ready = false) (hbuilt : c.pipeline ≠ none)
    (hwaiting : c.mayBeReady = false) (hannounced : .readyCallback ∈ c.journal) :
    InStep ({ c with ready := true }.setState .connected).markReady := by
  obtain ⟨hstarted, hpipeline⟩ := h.unready hready
  have hstate := h.setState .connected
  have hnever : c.journal.count .sendRequest = 0 := by
    rcases h.once with hzero | ⟨hs, -⟩
    · exact hzero
    · exact absurd (hstarted.symm.trans hs) Bool.false_ne_true
  have hresult : ∀ p, p = some .ready ∨ p = some .tornDown →
      InStep { c.setState .connected with ready := true, pipeline := p } := fun p hp =>
    { alive := hstate.alive
      unbuilt := fun hc => absurd (h.unbuilt hc) hbuilt
      unready := fun hr => absurd hr Bool.true_eq_false.mp
      waiting := fun hw => absurd (hwaiting.symm.trans hw) Bool.false_ne_true
      unsent := fun _ _ => hp
      sent := fun hs => absurd (hstarted.symm.trans hs) Bool.false_ne_true
      once := hstate.once
      announced := fun _ => List.mem_append_left _ hannounced
      order := hstate.order }
  rw [StreamingClient.markReady]
  rcases hpipeline with hp | hp | hp
  · exact absurd hp hbuilt
  · have := hresult (some .ready) (Or.inl rfl)
    simpa only [StreamingClient.setState, StreamingClient.record, hp] using this
  · have := hresult (some .tornDown) (Or.inr rfl)
    simpa only [StreamingClient.setState, StreamingClient.record, hp] using this

theorem markReady_ready (c : StreamingClient) : c.markReady.ready = c.ready := by
  rw [StreamingClient.markReady]
  split <;> rfl

theorem InStep.onReady {c : StreamingClient} (h : InStep c) (during : List Signal) : InStep (c.onReady during) := by
  rw [StreamingClient.onReady]
  split
  · rename_i hwaiting
    obtain ⟨hready, hbuilt⟩ := h.waiting hwaiting
    have hcalled : InStep ({ c with mayBeReady := false }.record .readyCallback) := by
      have hr := h.record (a := .readyCallback) ⟨Act.noConfusion, Act.noConfusion⟩
      exact ⟨hr.alive, hr.unbuilt, hr.unready, fun hw => absurd hw Bool.false_ne_true, hr.unsent, hr.sent, hr.once,
        hr.announced, hr.order⟩
    rw [handleReady]
    split
    · exact hcalled
    · have hmarked := hcalled.markReady hready hbuilt rfl (List.mem_append_right _ (List.mem_singleton.mpr rfl))
      simp only
      split
      · rename_i hguard
        rw [Bool.and_eq_true, Bool.not_eq_true'] at hguard
        exact hmarked.send (markReady_ready _) hguard.2 during
      · exact hmarked
  · exact h

theorem InStep.onBatch {c : StreamingClient} (h : InStep c) (n : ℕ) : InStep (c.onBatch n) := by
  rw [StreamingClient.onBatch]
  split
  · rw [handleBatch]
    split
    · exact h.record ⟨Act.noConfusion, Act.noConfusion⟩
    · split
      · exact ⟨h.alive, h.unbuilt, h.unready, h.waiting, h.unsent, h.sent, h.once, h.announced, h.order⟩
      · exact h
  · exact h

theorem InStep.nextRecord {c : StreamingClient} (h : InStep c) : InStep c.nextRecord := by
  rw [StreamingClient.nextRecord]
  split
  · exact h
  · have hr := h.record (a := .recordHandler) ⟨Act.noConfusion, Act.noConfusion⟩
    exact ⟨hr.alive, hr.unbuilt, hr.unready, hr.waiting, hr.unsent, hr.sent, hr.once, hr.announced, hr.order⟩

theorem InStep.runDeferred {c : StreamingClient} (h : InStep c) : InStep c.runDeferred := by
  have hrest : ∀ rest, InStep { c with deferred := rest } := fun rest =>
    ⟨h.alive, h.unbuilt, h.unready, h.waiting, h.unsent, h.sent, h.once, h.announced, h.order⟩
  rw [StreamingClient.runDeferred]
  split
  · exact h
  · simp only
    split
    · exact (hrest _).record ⟨Act.noConfusion, Act.noConfusion⟩
    · exact hrest _
  · simp only
    split
    · exact (hrest _).record ⟨Act.noConfusion, Act.noConfusion⟩
    · exact hrest _

/-- **One event.** -/
theorem InStep.step {c : StreamingClient} (h : InStep c) (ev : Event) : InStep (c.step ev) := by
  rw [StreamingClient.step.eq_def, if_neg (by rw [h.alive.1]; exact Bool.false_ne_true)]
  cases ev with
  | call x => exact h.call x
  | nextRecord => exact h.nextRecord
  | ready during =>
      simp only
      split
      · exact h.onReady during
      · exact h
  | batch n =>
      simp only
      split
      · exact h.onBatch n
      · exact h
  | signal s =>
      simp only
      split
      · exact h.signalled (signalled_onSignal c s)
      · exact h
  | runDeferred =>
      simp only
      split
      · exact h.runDeferred
      · exact h

theorem inStep_run (handlers : Handlers) (hostname : String) (evs : List Event) :
    InStep (Runs.run step { handlers, hostname } evs) := by
  have hstep : ∀ c ev, InStep c → InStep (c.step ev) := fun _ ev h => h.step ev
  exact Runs.run_invariant hstep (inStep_initial handlers hostname) evs

/-- **The process is never terminated.**  Whatever the user calls and the chain does, `Connect`, `MarkReady` and
`Start` of the pipeline are called in the right states only, and the request is sent at most once, after the ready
callback. -/
theorem never_terminates (handlers : Handlers) (hostname : String) (evs : List Event) :
    let c := Runs.run step { handlers, hostname } evs
    (c.terminated = false ∧ .terminate ∉ c.journal) ∧ c.journal.count .sendRequest ≤ 1 ∧
      ∀ before after, c.journal = before ++ .sendRequest :: after → .readyCallback ∈ before := by
  have h := inStep_run handlers hostname evs
  refine ⟨h.alive, ?_, fun before after heq => h.order before _ after heq rfl⟩
  rcases h.once with hzero | ⟨-, hone⟩ <;> omega

end StreamingClient

end DbnPipe.Client
