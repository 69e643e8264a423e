import DbnPipe.Client.ClientJournal

/-!
# Silence after `Stop`

Once `Stop` or `Close` has returned no handler of the user should run.  Two things still run one: the loop of
`HandleBatch`, which passes on the records that are left of a batch, and the functions that `HandleError` and
`HandleComplete` have deferred.

* `SilentAfterStop` — **no handler runs after a `Stop` has returned**;
* `Settled` — the condition on a `Stop`: no record of a batch is left, and no deferred function waits;
* `SinkDown`, `Hushed` — the invariant: a terminal client has no valid sink, a stopped one nothing left to run;
* `silent_run` — **silence**, in every run whose `Stop`s are all settled;
* `not_silent_of_unsettled` — what a `Stop` that is not settled leads to.
-/

namespace DbnPipe.Client.StreamingClient

open Journal

/-- A handler of the user runs. -/
def runsHandler : Act → Bool
  | .batchHandler | .recordHandler | .errorHandler _ | .completeHandler => true
  | _ => false

/-- No handler runs after a `Stop` has returned. -/
def SilentAfterStop (journal : List Act) : Prop :=
  Justified (fun before a => runsHandler a = true → .stopped ∉ before) journal

/-- A call of `Stop` or `Close` finds no record left to pass on, and no deferred function waiting. -/
def Settled (c : StreamingClient) (ev : Event) : Prop :=
  ev = .call .stop ∨ ev = .call .close → c.deferred = [] ∧ c.remaining = 0

/-! ### The sink of a terminal client -/

/-- A terminal client has no valid sink. -/
def SinkDown (c : StreamingClient) : Prop := c.isTerminal = true → c.sinkValid ≠ some true

/-- A running client need not have one. -/
theorem sinkDown_of_running {c : StreamingClient} (h : c.isTerminal = false) : SinkDown c :=
  fun hterminal => absurd (h.symm.trans hterminal) Bool.false_ne_true

theorem sinkDown_finish (c : StreamingClient) (s : ClientState) (told : List Deferred) : SinkDown (c.finish s told) := by
  intro _
  have hinvalid : ∀ v : Option Bool, v.map (fun _ => false) ≠ some true := by
    intro v
    cases v <;> simp
  rw [finish, doTeardown]
  split
  · exact hinvalid _
  · exact hinvalid _
  · exact hinvalid _

theorem SinkDown.onSignal {c : StreamingClient} (h : SinkDown c) (s : Signal) : SinkDown (c.onSignal s) := by
  rw [StreamingClient.onSignal.eq_def]
  split
  · cases s with
    | error e =>
        simp only [handleError]
        split
        · exact h
        · exact sinkDown_finish c _ _
    | done =>
        simp only [handleComplete]
        split
        · exact h
        · exact sinkDown_finish c _ _
  · exact h

theorem SinkDown.onSignals {c : StreamingClient} (h : SinkDown c) (during : List Signal) :
    SinkDown (c.onSignals during) := by
  induction during generalizing c with
  | nil => exact h
  | cons s during ih => exact ih (h.onSignal s)

/-- A client that sends its request is streaming. -/
theorem sinkDown_send (during : List Signal) (c : StreamingClient) : SinkDown (c.send during) :=
  sinkDown_of_running rfl

theorem SinkDown.handleError {c : StreamingClient} (h : SinkDown c) (e : Error) : SinkDown (c.handleError e) := by
  rw [StreamingClient.handleError]
  split
  · exact h
  · exact sinkDown_finish c _ _

theorem SinkDown.connect {c : StreamingClient} (h : SinkDown c) (during : List Signal) :
    SinkDown (c.connect during) := by
  rw [StreamingClient.connect]
  split
  · exact h
  · split
    · exact h.handleError _
    · rw [connect_built]
      exact (sinkDown_of_running (c := c.connecting) rfl).onSignals during

theorem SinkDown.call {c : StreamingClient} (h : SinkDown c) (x : Call) : SinkDown (c.call x) := by
  have hstop : SinkDown c.stop := by
    rw [StreamingClient.stop]
    split
    · exact h
    · exact sinkDown_finish c .stopping []
  cases x with
  | setRequest => exact h
  | connectHost addr during =>
      rw [StreamingClient.call, connectHost]
      split
      · exact h
      · split
        · exact h.handleError _
        · split
          · exact h.handleError _
          · exact h.connect during
  | connect during => exact h.connect during
  | start during =>
      rw [StreamingClient.call, StreamingClient.start]
      split
      · exact h
      · split
        · exact h.handleError _
        · simp only
          split
          · exact sinkDown_send during _
          · exact h
  | stop => exact hstop
  | close => exact hstop
  | suspend =>
      rw [StreamingClient.call, StreamingClient.suspend]
      simp only [StreamingClient.pipelineSuspend]
      split
      · split <;> exact h
      · exact h
  | resume =>
      rw [StreamingClient.call, StreamingClient.resume]
      simp only [StreamingClient.pipelineResume]
      split
      · split <;> exact h
      · exact h

theorem sinkDown_onReady {c : StreamingClient} (h : SinkDown c) (during : List Signal) :
    SinkDown (c.onReady during) := by
  rw [StreamingClient.onReady]
  split
  · rw [handleReady]
    split
    · exact h
    · simp only
      split
      · exact sinkDown_send during _
      · rw [markReady]
        split <;> exact sinkDown_of_running rfl
  · exact h

/-- **Every event keeps it.** -/
theorem SinkDown.step {c : StreamingClient} (h : SinkDown c) (ev : Event) : SinkDown (c.step ev) := by
  rw [StreamingClient.step.eq_def]
  split
  · exact h
  · cases ev with
    | call x => exact h.call x
    | nextRecord =>
        simp only [StreamingClient.nextRecord]
        split <;> exact h
    | ready during =>
        simp only
        split
        · exact sinkDown_onReady h during
        · exact h
    | batch n =>
        simp only [StreamingClient.onBatch, handleBatch]
        split_ifs <;> exact h
    | signal s =>
        simp only
        split
        · exact h.onSignal s
        · exact h
    | runDeferred =>
        simp only [StreamingClient.runDeferred]
        split
        · split
          · exact h
          · split <;> exact h
          · split <;> exact h
        · exact h

/-! ### A stopped client -/

/-- Nothing is left of the client that could run a handler. -/
structure Over (c : StreamingClient) : Prop where
  terminal : c.isTerminal = true
  sink : c.sinkValid ≠ some true
  deferred : c.deferred = []
  remaining : c.remaining = 0

/-- The client goes on, and no handler runs. -/
def Still (c c' : StreamingClient) : Prop :=
  Over c' ∧ ∃ extra, c'.journal = c.journal ++ extra ∧ ∀ a ∈ extra, runsHandler a = false

theorem Over.still {c : StreamingClient} (h : Over c) : Still c c :=
  ⟨h, [], (List.append_nil _).symm, fun _ ha => absurd ha List.not_mem_nil⟩

/-- A flag of the client changes, and an entry is written. -/
theorem still_of_entry {c c' : StreamingClient} {a : Act} (h : Over c') (hjournal : c'.journal = c.journal ++ [a])
    (ha : runsHandler a = false) : Still c c' :=
  ⟨h, [a], hjournal, fun _ hb => List.mem_singleton.mp hb ▸ ha⟩

theorem Over.call {c : StreamingClient} (h : Over c) (x : Call) : Still c (c.call x) := by
  have hstop : Still c c.stop := by
    rw [StreamingClient.stop, if_pos h.terminal]
    exact still_of_entry ⟨h.terminal, h.sink, h.deferred, h.remaining⟩ rfl rfl
  cases x with
  | setRequest => exact ⟨⟨h.terminal, h.sink, h.deferred, h.remaining⟩, h.still.2⟩
  | connectHost addr during =>
      rw [StreamingClient.call, connectHost, if_pos h.terminal]
      exact h.still
  | connect during =>
      rw [StreamingClient.call, StreamingClient.connect, h.terminal, Bool.true_or, if_pos rfl]
      exact h.still
  | start during =>
      rw [StreamingClient.call, StreamingClient.start, if_pos h.terminal]
      exact h.still
  | stop => exact hstop
  | close => exact hstop
  | suspend =>
      have hcount : Over { c with suspendCount := c.suspendCount + 1 } := ⟨h.terminal, h.sink, h.deferred, h.remaining⟩
      rw [StreamingClient.call, StreamingClient.suspend]
      simp only [StreamingClient.pipelineSuspend]
      split
      · split
        · exact ⟨hcount, h.still.2⟩
        · exact ⟨hcount, h.still.2⟩
        · exact still_of_entry ⟨h.terminal, h.sink, h.deferred, h.remaining⟩ rfl rfl
      · exact ⟨hcount, h.still.2⟩
  | resume =>
      have hcount : Over { c with suspendCount := c.suspendCount - 1 } := ⟨h.terminal, h.sink, h.deferred, h.remaining⟩
      rw [StreamingClient.call, StreamingClient.resume]
      simp only [StreamingClient.pipelineResume]
      split
      · split
        · exact ⟨hcount, h.still.2⟩
        · exact ⟨hcount, h.still.2⟩
        · exact still_of_entry ⟨h.terminal, h.sink, h.deferred, h.remaining⟩ rfl rfl
      · exact ⟨hcount, h.still.2⟩

/-- **Nothing that happens to it runs a handler.** -/
theorem Over.step {c : StreamingClient} (h : Over c) (ev : Event) : Still c (c.step ev) := by
  rw [StreamingClient.step.eq_def]
  split
  · exact h.still
  · cases ev with
    | call x => exact h.call x
    | nextRecord =>
        simp only [StreamingClient.nextRecord, if_pos h.remaining]
        exact h.still
    | ready during =>
        simp only [if_pos h.remaining, StreamingClient.onReady]
        split
        · have hterminal : ({ c with mayBeReady := false }.record .readyCallback).isTerminal = true := h.terminal
          rw [handleReady, if_pos hterminal]
          exact still_of_entry ⟨h.terminal, h.sink, h.deferred, h.remaining⟩ rfl rfl
        · exact h.still
    | batch n =>
        simp only [if_pos h.remaining, StreamingClient.onBatch, if_neg h.sink]
        exact h.still
    | signal s =>
        simp only [if_pos h.remaining]
        rw [StreamingClient.onSignal.eq_def, if_neg h.sink]
        exact h.still
    | runDeferred =>
        simp only [if_pos h.remaining, StreamingClient.runDeferred, h.deferred]
        exact h.still

/-! ### The invariant -/

/-- No handler has run after a `Stop`, and none can. -/
structure Hushed (c : StreamingClient) : Prop where
  silent : SilentAfterStop c.journal
  sink : SinkDown c
  afterStop : .stopped ∈ c.journal → Over c

theorem hushed_initial (handlers : Handlers) (hostname : String) : Hushed { handlers, hostname } where
  silent := justified_nil _
  sink h := absurd h Bool.false_ne_true
  afterStop h := absurd h List.not_mem_nil

/-- Where no `Stop` has returned any handler may run. -/
theorem silent_of_not_mem {journal : List Act} (h : .stopped ∉ journal) : SilentAfterStop journal := by
  rintro before a after rfl - hmem
  exact h (List.mem_append_left _ hmem)

/-- **A `Stop` with nothing left to run.** -/
theorem Hushed.stop {c : StreamingClient} (h : Hushed c) (hnew : .stopped ∉ c.journal) (hdeferred : c.deferred = [])
    (hremaining : c.remaining = 0) : Hushed c.stop := by
  have hstop : Over c.stop ∧ ∃ extra, c.stop.journal = c.journal ++ extra ++ [.stopped] ∧ .stopped ∉ extra := by
    rw [StreamingClient.stop]
    split
    · rename_i hterminal
      exact ⟨⟨hterminal, h.sink hterminal, hdeferred, hremaining⟩, [], by rw [List.append_nil]; rfl, List.not_mem_nil⟩
    · obtain ⟨extra, hextra, hmem⟩ := grows_finish c
      have hterminal : (c.finish .stopping []).isTerminal = true := by
        rw [isTerminal, finish, doTeardown]
        split <;> rfl
      have hleft : (c.finish .stopping []).deferred = [] ∧ (c.finish .stopping []).remaining = 0 := by
        rw [finish, doTeardown, hdeferred]
        split <;> exact ⟨rfl, hremaining⟩
      refine ⟨⟨hterminal, sinkDown_finish c .stopping [] hterminal, hleft.1, hleft.2⟩, extra, ?_, hmem⟩
      rw [record, hextra]
  obtain ⟨hover, extra, hjournal, hmem⟩ := hstop
  refine ⟨?_, fun _ => hover.sink, fun _ => hover⟩
  have hbefore : .stopped ∉ c.journal ++ extra := fun ha => (List.mem_append.mp ha).elim hnew hmem
  rw [SilentAfterStop, hjournal, justified_concat]
  exact ⟨silent_of_not_mem hbefore, fun ha => absurd ha Bool.false_ne_true⟩

/-- **One event**, where a `Stop` finds nothing left to run. -/
theorem Hushed.step {c : StreamingClient} (h : Hushed c) {ev : Event} (hsettled : c.Settled ev) :
    Hushed (c.step ev) := by
  by_cases hstopped : .stopped ∈ c.journal
  · obtain ⟨hover, extra, hjournal, hextra⟩ := (h.afterStop hstopped).step ev
    refine ⟨?_, fun _ => hover.sink, fun _ => hover⟩
    rw [SilentAfterStop, hjournal]
    exact h.silent.append fun a ha before hruns => absurd ((hextra a ha).symm.trans hruns) Bool.false_ne_true
  · by_cases hstop : ev = .call .stop ∨ ev = .call .close
    · obtain ⟨hdeferred, hremaining⟩ := hsettled hstop
      rw [StreamingClient.step.eq_def]
      split
      · exact h
      · rcases hstop with rfl | rfl <;> exact h.stop hstopped hdeferred hremaining
    · rw [not_or] at hstop
      obtain ⟨extra, hextra, hmem⟩ := grows_step c hstop.1 hstop.2
      have hnew : .stopped ∉ (c.step ev).journal := by
        rw [hextra, List.mem_append, not_or]
        exact ⟨hstopped, hmem⟩
      exact ⟨silent_of_not_mem hnew, h.sink.step ev, fun ha => absurd ha hnew⟩

/-- **Silence after `Stop`**, in every run in which `Stop` and `Close` are called only when no record of a batch is left
to pass on and no deferred function waits. -/
theorem silent_run (handlers : Handlers) (hostname : String) (evs : List Event)
    (h : Runs.Along Settled step { handlers, hostname } evs) :
    SilentAfterStop (Runs.run step { handlers, hostname } evs).journal := by
  have hstep : ∀ c ev, Hushed c → Settled c ev → Hushed (c.step ev) := fun _ _ h hsettled => h.step hsettled
  exact (Runs.run_preserves hstep (hushed_initial handlers hostname) h).silent

/-- A client that is stopped before it has received anything. -/
theorem silent_stop : SilentAfterStop (Runs.run step { handlers := { record := true }, hostname := "hist.databento.com" }
    [.call .setRequest, .call (.connect []), .call (.start []), .ready [], .call .stop, .batch 2]).journal :=
  silent_run _ _ _ ⟨fun _ => ⟨rfl, rfl⟩, fun _ => ⟨rfl, rfl⟩, fun _ => ⟨rfl, rfl⟩, fun _ => ⟨rfl, rfl⟩,
    fun _ => ⟨rfl, rfl⟩, fun _ => ⟨rfl, rfl⟩, trivial⟩

/-- `Stop` leaves the rest of the batch and the deferred functions as they are. -/
theorem stop_left (c : StreamingClient) : c.stop.deferred = c.deferred ∧ c.stop.remaining = c.remaining ∧
    c.stop.terminated = c.terminated ∧ c.stop.handlers = c.handlers ∧ .stopped ∈ c.stop.journal := by
  have hmem : ∀ c' : StreamingClient, .stopped ∈ (c'.record .stopped).journal :=
    fun c' => List.mem_append_right _ (List.mem_singleton.mpr rfl)
  rw [stop]
  split
  · exact ⟨rfl, rfl, rfl, rfl, hmem c⟩
  · rw [finish, doTeardown]
    split <;> exact ⟨List.append_nil _, rfl, rfl, rfl, hmem _⟩

/-- **A `Stop` that leaves something to run**: the next event runs a handler. -/
theorem not_silent_of_unsettled {c : StreamingClient} (halive : c.terminated = false)
    (hhandlers : c.handlers.error = true ∧ c.handlers.complete = true)
    (hleft : ¬ (c.deferred = [] ∧ c.remaining = 0)) :
    ∃ ev, ¬ SilentAfterStop ((c.step (.call .stop)).step ev).journal := by
  obtain ⟨hdeferred, hremaining, hterminated, hsame, hmem⟩ := c.stop_left
  have hstop : c.step (.call .stop) = c.stop := by
    rw [StreamingClient.step.eq_def, halive, if_neg Bool.false_ne_true]
    rfl
  have hbreaks : ∀ (c' : StreamingClient) (a : Act), c'.journal = c.stop.journal ++ [a] → runsHandler a = true →
      ¬ SilentAfterStop c'.journal := by
    intro c' a hjournal ha hsilent
    exact hsilent c.stop.journal a [] hjournal ha hmem
  rw [hstop]
  by_cases hzero : c.remaining = 0
  · have hne : c.deferred ≠ [] := fun hnil => hleft ⟨hnil, hzero⟩
    obtain ⟨d, rest, hd⟩ := List.exists_cons_of_ne_nil hne
    refine ⟨.runDeferred, ?_⟩
    rw [StreamingClient.step.eq_def, hterminated, halive, if_neg Bool.false_ne_true]
    simp only [hremaining, if_pos hzero, runDeferred, hdeferred, hd, hsame]
    cases d with
    | error e =>
        simp only [hhandlers.1, if_true]
        exact hbreaks _ (.errorHandler e) rfl rfl
    | complete =>
        simp only [hhandlers.2, if_true]
        exact hbreaks _ .completeHandler rfl rfl
  · refine ⟨.nextRecord, ?_⟩
    rw [StreamingClient.step.eq_def, hterminated, halive, if_neg Bool.false_ne_true]
    simp only [nextRecord, hremaining, if_neg hzero]
    exact hbreaks _ .recordHandler rfl rfl

/-- **`Stop` in a record handler.**  It is called for the first of two records; the second one is handed over all the
same. -/
theorem not_silent : ¬ ∀ (handlers : Handlers) (hostname : String) (evs : List Event),
    SilentAfterStop (Runs.run step { handlers, hostname } evs).journal := by
  intro h
  exact h { record := true } "hist.databento.com"
    [.call .setRequest, .call (.connect []), .call (.start []), .ready [], .batch 2, .nextRecord, .call .stop,
      .nextRecord]
    [.state .connecting, .chainConnect, .readyCallback, .state .connected, .sendRequest, .state .streaming,
      .recordHandler, .state .stopping, .chainClose, .stopped] .recordHandler [] rfl rfl (by decide)

end DbnPipe.Client.StreamingClient
