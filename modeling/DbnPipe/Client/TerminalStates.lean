import DbnPipe.Client.ClientJournal

/-!
# Terminal states of the streaming client

`Done`, `Error` and `Stopping` should be final, and the user be told of an end once.  `Start` and `HandleReady`
assign `Streaming` after `pipeline_->Start()` has returned, whatever the chain has signalled in the meantime.

* `states`, `endings` — the states assigned and the error and complete handlers run, in a journal;
* `Absorbing` — **no state is assigned after a terminal one**;
* `sending` — the signals of the chain while an event sends the request;
* `Sound` — the invariant of runs without such signals, and `sound_step`, that every event keeps it;
* `absorbing_iff` — the terminal states are absorbing **exactly when** no request meets a signal.
-/

namespace DbnPipe.Client.StreamingClient

/-! ### Reading a journal -/

/-- The states assigned, in order. -/
def states (journal : List Act) : List ClientState :=
  journal.filterMap fun | .state s => some s | _ => none

/-- How many times the user's error and complete handlers ran. -/
def endings (journal : List Act) : ℕ :=
  journal.countP fun | .errorHandler _ => true | .completeHandler => true | _ => false

@[simp] theorem states_append (j j' : List Act) : states (j ++ j') = states j ++ states j' := List.filterMap_append
@[simp] theorem endings_append (j j' : List Act) : endings (j ++ j') = endings j + endings j' := List.countP_append

/-- A terminal state. -/
def ends (s : ClientState) : Bool := decide (s = .done) || decide (s = .error) || decide (s = .stopping)

/-- No state is assigned after a terminal one. -/
def Absorbing (journal : List Act) : Prop := (states journal).Pairwise fun s _ => ends s = false

/-- Terminal states are absorbing, and the user is told of an end at most once. -/
def EndsOnce (journal : List Act) : Prop := Absorbing journal ∧ endings journal ≤ 1

/-- The signals that the chain gives while the event sends the request, if it does. -/
def sending (c : StreamingClient) : Event → List Signal
  | .call (.start during) => if !c.isTerminal && c.connected && c.ready && !c.started then during else []
  | .ready during =>
    if decide (c.remaining = 0) && c.mayBeReady && !c.isTerminal && c.startRequested && !c.started then during else []
  | _ => []

/-! ### The invariant -/

/-- The client has reached no terminal state, or has just reached its last state. -/
structure Sound (c : StreamingClient) : Prop where
  absorbing : Absorbing c.journal
  running : c.isTerminal = false → ∀ s ∈ states c.journal, ends s = false
  told : endings c.journal + c.deferred.length ≤ if c.isTerminal then 1 else 0
  wired : c.isTerminal = false → c.pipeline = none ∨ c.sinkValid = some true ∧ c.pipeline ≠ some .tornDown

theorem sound_initial (handlers : Handlers) (hostname : String) : Sound { handlers, hostname } where
  absorbing := List.Pairwise.nil
  running _ _ hs := absurd hs List.not_mem_nil
  told := Nat.le_refl 0
  wired _ := Or.inl rfl

/-- An entry that is no state and no handler of the user. -/
def Silent (a : Act) : Prop := states [a] = [] ∧ endings [a] = 0

theorem Sound.record {c : StreamingClient} (h : Sound c) {a : Act} (ha : Silent a) : Sound (c.record a) := by
  have hstates : states (c.record a).journal = states c.journal := by
    rw [StreamingClient.record, states_append, ha.1, List.append_nil]
  refine ⟨?_, ?_, ?_, h.wired⟩
  · rw [Absorbing, hstates]
    exact h.absorbing
  · rw [hstates]
    exact h.running
  · rw [StreamingClient.record, endings_append, ha.2, Nat.add_zero]
    exact h.told

/-- **A state is assigned** from a state that is not terminal. -/
theorem Sound.setState {c : StreamingClient} (h : Sound c) (hrunning : c.isTerminal = false) {s : ClientState}
    (hs : ends s = false) : Sound (c.setState s) := by
  have hall := h.running hrunning
  have htold := h.told
  rw [hrunning] at htold
  refine ⟨?_, fun _ s' hs' => ?_, ?_, fun _ => h.wired hrunning⟩
  · rw [Absorbing, StreamingClient.setState, StreamingClient.record, states_append]
    exact List.pairwise_append.mpr ⟨h.absorbing, List.pairwise_singleton _ _, fun s' hs' _ _ => hall s' hs'⟩
  · rw [StreamingClient.setState, StreamingClient.record, states_append, List.mem_append] at hs'
    rcases hs' with hs' | hs'
    · exact hall s' hs'
    · rw [List.mem_singleton.mp hs']
      exact hs
  · rw [StreamingClient.setState, StreamingClient.record, endings_append]
    exact Nat.le_trans htold (Nat.zero_le _)

/-- **A terminal state is assigned**, the pipeline is torn down, and one function is deferred at most. -/
theorem Sound.finish {c : StreamingClient} (h : Sound c) (hrunning : c.isTerminal = false) {s : ClientState}
    (hs : ends s = true) {told : List Deferred} (htold : told.length ≤ 1) :
    Sound (c.finish s told) := by
  have hall := h.running hrunning
  have hnone := h.told
  rw [hrunning] at hnone
  have hstate : (((c.setState s).invalidate).doTeardown).state = s := by
    rw [doTeardown]
    split <;> rfl
  have hjournal : states (((c.setState s).invalidate).doTeardown).journal = states c.journal ++ [s] ∧
      endings (((c.setState s).invalidate).doTeardown).journal = endings c.journal := by
    rw [doTeardown]
    split <;> simp [invalidate, StreamingClient.setState, StreamingClient.record, states, endings]
  have hterminal : (c.finish s told).isTerminal = true := (congrArg ends hstate).trans hs
  refine ⟨?_, fun hr => absurd (hr.symm.trans hterminal) Bool.false_ne_true, ?_,
    fun hr => absurd (hr.symm.trans hterminal) Bool.false_ne_true⟩
  · rw [Absorbing, StreamingClient.finish, hjournal.1]
    exact List.pairwise_append.mpr ⟨h.absorbing, List.pairwise_singleton _ _, fun s' hs' _ _ => hall s' hs'⟩
  · rw [hterminal, StreamingClient.finish, hjournal.2, List.length_append, if_pos rfl]
    rw [if_neg Bool.false_ne_true] at hnone
    omega

theorem Sound.handleError {c : StreamingClient} (h : Sound c) (e : Error) : Sound (c.handleError e) := by
  rw [StreamingClient.handleError]
  split
  · exact h
  · rename_i hrunning
    exact h.finish (eq_false_of_ne_true hrunning) rfl (by split <;> simp)

theorem Sound.handleComplete {c : StreamingClient} (h : Sound c) : Sound c.handleComplete := by
  rw [StreamingClient.handleComplete]
  split
  · exact h
  · rename_i hrunning
    exact h.finish (eq_false_of_ne_true hrunning) rfl (by split <;> simp)

theorem Sound.onSignal {c : StreamingClient} (h : Sound c) (s : Signal) : Sound (c.onSignal s) := by
  rw [StreamingClient.onSignal.eq_def]
  split
  · cases s with
    | error e => exact h.handleError e
    | done => exact h.handleComplete
  · exact h

theorem Sound.onSignals {c : StreamingClient} (h : Sound c) (during : List Signal) : Sound (c.onSignals during) := by
  induction during generalizing c with
  | nil => exact h
  | cons s during ih => exact ih (h.onSignal s)

/-! ### The operations -/

theorem Sound.pipelineSuspend {c : StreamingClient} (h : Sound c) : Sound c.pipelineSuspend := by
  rw [StreamingClient.pipelineSuspend]
  split
  · exact h
  · exact h
  · exact h.record ⟨rfl, rfl⟩

theorem Sound.pipelineResume {c : StreamingClient} (h : Sound c) : Sound c.pipelineResume := by
  rw [StreamingClient.pipelineResume]
  split
  · exact h
  · exact h
  · exact h.record ⟨rfl, rfl⟩

theorem Sound.connect {c : StreamingClient} (h : Sound c) (during : List Signal) : Sound (c.connect during) := by
  rw [StreamingClient.connect]
  split
  · exact h
  · split
    · exact h.handleError _
    · rename_i hguard hset
      rw [Bool.or_eq_true, not_or, Bool.not_eq_true, Bool.not_eq_true] at hguard
      have hconnecting : Sound c.connecting := by
        have hstates : states c.connecting.journal = states c.journal ++ [.connecting] := by
          rw [connecting]
          split <;> simp [states]
        have hendings : endings c.connecting.journal = endings c.journal := by
          rw [connecting]
          split <;> simp [endings]
        have hset' := h.setState hguard.1 (s := .connecting) rfl
        have hsame : states (c.setState .connecting).journal = states c.connecting.journal := by
          rw [hstates, StreamingClient.setState, StreamingClient.record, states_append]
          rfl
        refine ⟨?_, ?_, ?_, fun _ => Or.inr ⟨rfl, by simp [connecting]⟩⟩
        · rw [Absorbing, ← hsame]
          exact hset'.absorbing
        · rw [← hsame]
          exact fun _ => hset'.running rfl
        · have := h.told
          rw [hguard.1] at this
          rw [hendings]
          exact this
      rw [connect_built]
      exact hconnecting.onSignals during

theorem Sound.connectHost {c : StreamingClient} (h : Sound c) (addr : Bool) (during : List Signal) :
    Sound (c.connectHost addr during) := by
  rw [StreamingClient.connectHost]
  split
  · exact h
  · split
    · exact h.handleError _
    · split
      · exact h.handleError _
      · exact h.connect during

/-- **The request is sent** and meets no signal. -/
theorem Sound.send {c : StreamingClient} (h : Sound c) (hrunning : c.isTerminal = false)
    (hpipeline : c.pipeline = some .ready) : Sound (c.send []) := by
  have hsend : c.send [] =
      ({ c with pipeline := some .started, started := true }.record .sendRequest).setState .streaming := by
    rw [StreamingClient.send, pipelineStart, hpipeline]
    rfl
  have hwired := (h.wired hrunning).resolve_left (by rw [hpipeline]; exact Option.some_ne_none _)
  have hstarted : Sound { c with pipeline := some .started, started := true } :=
    ⟨h.absorbing, h.running, h.told, fun _ => Or.inr ⟨hwired.1, by simp⟩⟩
  rw [hsend]
  exact (hstarted.record (a := .sendRequest) ⟨rfl, rfl⟩).setState hrunning rfl

/-- A client that runs and is ready has a pipeline that is. -/
theorem ready_of_running {c : StreamingClient} (h : Sound c) (hstep : InStep c) (hrunning : c.isTerminal = false)
    (hready : c.ready = true) (hstarted : c.started = false) : c.pipeline = some .ready := by
  have hwired := (h.wired hrunning).resolve_left (hstep.built hready)
  exact (hstep.unsent hready hstarted).resolve_right hwired.2

theorem Sound.start {c : StreamingClient} (h : Sound c) (hstep : InStep c) {during : List Signal}
    (hquiet : c.sending (.call (.start during)) = []) : Sound (c.start during) := by
  rw [StreamingClient.start]
  split
  · exact h
  · split
    · exact h.handleError _
    · rename_i hrunning hunconnected
      have hconnected : c.connected = true := by simpa using hunconnected
      have hrequested : Sound { c with startRequested := true } := ⟨h.absorbing, h.running, h.told, h.wired⟩
      have hfalse := eq_false_of_ne_true hrunning
      simp only
      split
      · rename_i hguard
        rw [Bool.and_eq_true, Bool.not_eq_true'] at hguard
        obtain ⟨hready, hstarted⟩ := hguard
        rw [sending, hfalse, hconnected, hready, hstarted] at hquiet
        obtain rfl : during = [] := hquiet
        have hpipeline := ready_of_running h hstep hfalse hready hstarted
        exact hrequested.send hfalse hpipeline
      · exact hrequested

theorem Sound.stop {c : StreamingClient} (h : Sound c) : Sound c.stop := by
  rw [StreamingClient.stop]
  split
  · exact h.record ⟨rfl, rfl⟩
  · rename_i hrunning
    have hfinish : Sound (c.finish .stopping []) := h.finish (eq_false_of_ne_true hrunning) rfl (Nat.zero_le 1)
    exact hfinish.record ⟨rfl, rfl⟩

theorem Sound.call {c : StreamingClient} (h : Sound c) (hstep : InStep c) {x : Call}
    (hquiet : c.sending (.call x) = []) : Sound (c.call x) := by
  cases x with
  | setRequest => exact ⟨h.absorbing, h.running, h.told, h.wired⟩
  | connectHost addr during => exact h.connectHost addr during
  | connect during => exact h.connect during
  | start during => exact h.start hstep hquiet
  | stop => exact h.stop
  | close => exact h.stop
  | suspend =>
      have hcount : Sound { c with suspendCount := c.suspendCount + 1 } := ⟨h.absorbing, h.running, h.told, h.wired⟩
      rw [StreamingClient.call, StreamingClient.suspend]
      simp only
      split
      · exact hcount.pipelineSuspend
      · exact hcount
  | resume =>
      have hcount : Sound { c with suspendCount := c.suspendCount - 1 } := ⟨h.absorbing, h.running, h.told, h.wired⟩
      rw [StreamingClient.call, StreamingClient.resume]
      simp only
      split
      · exact hcount.pipelineResume
      · exact hcount

theorem Sound.onBatch {c : StreamingClient} (h : Sound c) (n : ℕ) : Sound (c.onBatch n) := by
  rw [StreamingClient.onBatch]
  split
  · rw [handleBatch]
    split
    · exact h.record ⟨rfl, rfl⟩
    · split
      · exact ⟨h.absorbing, h.running, h.told, h.wired⟩
      · exact h
  · exact h

theorem Sound.nextRecord {c : StreamingClient} (h : Sound c) : Sound c.nextRecord := by
  rw [StreamingClient.nextRecord]
  split
  · exact h
  · have hless : Sound { c with remaining := c.remaining - 1 } := ⟨h.absorbing, h.running, h.told, h.wired⟩
    exact hless.record ⟨rfl, rfl⟩

/-- A deferred function runs: what it tells the user is no longer deferred. -/
theorem Sound.runDeferred {c : StreamingClient} (h : Sound c) : Sound c.runDeferred := by
  have htold := h.told
  have hrun : ∀ (d : Deferred) (rest : List Deferred) (a : Act), c.deferred = d :: rest → states [a] = [] →
      endings [a] ≤ 1 → Sound ({ c with deferred := rest }.record a) := by
    intro d rest a hd hstates hendings
    have hsame : states (c.journal ++ [a]) = states c.journal := by rw [states_append, hstates, List.append_nil]
    refine ⟨?_, ?_, ?_, h.wired⟩
    · rw [Absorbing, StreamingClient.record, hsame]
      exact h.absorbing
    · rw [StreamingClient.record, hsame]
      exact h.running
    · rw [hd, List.length_cons] at htold
      have hle : endings (c.journal ++ [a]) + rest.length ≤ endings c.journal + (rest.length + 1) := by
        rw [endings_append]
        omega
      exact Nat.le_trans hle htold
  have hdrop : ∀ (d : Deferred) (rest : List Deferred), c.deferred = d :: rest → Sound { c with deferred := rest } := by
    intro d rest hd
    refine ⟨h.absorbing, h.running, ?_, h.wired⟩
    rw [hd, List.length_cons] at htold
    have hle : endings c.journal + rest.length ≤ endings c.journal + (rest.length + 1) := by omega
    exact Nat.le_trans hle htold
  rw [StreamingClient.runDeferred]
  split
  · exact h
  · rename_i e rest hd
    simp only
    split
    · exact hrun _ rest _ hd rfl (Nat.le_refl 1)
    · exact hdrop _ rest hd
  · rename_i rest hd
    simp only
    split
    · exact hrun _ rest _ hd rfl (Nat.le_refl 1)
    · exact hdrop _ rest hd

/-- The client once its ready callback has marked the pipeline ready. -/
def marked (c : StreamingClient) : StreamingClient :=
  { c with
    mayBeReady := false, ready := true, pipeline := some .ready, state := .connected
    journal := c.journal ++ [.readyCallback] ++ [.state .connected] }

theorem onReady_eq {c : StreamingClient} (hwaiting : c.mayBeReady = true) (hrunning : c.isTerminal = false)
    (hconnecting : c.pipeline = some .connecting) (during : List Signal) :
    c.onReady during = if c.startRequested && !c.started then c.marked.send during else c.marked := by
  have hrunning' : ({ c with mayBeReady := false }.record .readyCallback).isTerminal = false := hrunning
  have hmarked : ({ ({ c with mayBeReady := false }.record .readyCallback) with ready := true }.setState
      .connected).markReady = c.marked := by
    simp only [markReady, StreamingClient.setState, StreamingClient.record, hconnecting, marked]
  rw [StreamingClient.onReady, if_pos hwaiting, handleReady, hrunning', if_neg Bool.false_ne_true]
  simp only [hmarked]
  rfl

/-- A client that runs and waits for its ready callback has a pipeline that connects. -/
theorem connecting_of_running {c : StreamingClient} (h : Sound c) (hstep : InStep c) (hrunning : c.isTerminal = false)
    (hwaiting : c.mayBeReady = true) :
    c.sinkValid = some true ∧ c.pipeline = some .connecting ∧ c.started = false := by
  obtain ⟨hready, hbuilt⟩ := hstep.waiting hwaiting
  obtain ⟨hstarted, hpipeline⟩ := hstep.unready hready
  obtain ⟨hvalid, htorn⟩ := (h.wired hrunning).resolve_left hbuilt
  exact ⟨hvalid, (hpipeline.resolve_left hbuilt).resolve_right htorn, hstarted⟩

theorem Sound.marked {c : StreamingClient} (h : Sound c) (hrunning : c.isTerminal = false)
    (hvalid : c.sinkValid = some true) : Sound c.marked := by
  have hless : Sound { c with mayBeReady := false, ready := true, pipeline := some .ready } :=
    ⟨h.absorbing, h.running, h.told, fun _ => Or.inr ⟨hvalid, by simp⟩⟩
  exact (hless.record (a := .readyCallback) ⟨rfl, rfl⟩).setState hrunning rfl

theorem Sound.onReady {c : StreamingClient} (h : Sound c) (hstep : InStep c) (hremaining : c.remaining = 0)
    {during : List Signal} (hquiet : c.sending (.ready during) = []) : Sound (c.onReady during) := by
  by_cases hwaiting : c.mayBeReady = true
  · by_cases hrunning : c.isTerminal = true
    · have hless : Sound { c with mayBeReady := false } := ⟨h.absorbing, h.running, h.told, h.wired⟩
      have hrunning' : ({ c with mayBeReady := false }.record .readyCallback).isTerminal = true := hrunning
      rw [StreamingClient.onReady, if_pos hwaiting, handleReady, if_pos hrunning']
      exact hless.record ⟨rfl, rfl⟩
    · have hfalse : c.isTerminal = false := eq_false_of_ne_true hrunning
      obtain ⟨hvalid, hconnecting, hstarted⟩ := connecting_of_running h hstep hfalse hwaiting
      rw [onReady_eq hwaiting hfalse hconnecting]
      split
      · rename_i hguard
        rw [Bool.and_eq_true] at hguard
        rw [sending, hremaining, hwaiting, hfalse, hguard.1, hguard.2] at hquiet
        obtain rfl : during = [] := hquiet
        exact (h.marked hfalse hvalid).send rfl rfl
      · exact h.marked hfalse hvalid
  · rw [StreamingClient.onReady, if_neg hwaiting]
    exact h

/-- **One event** that meets no signal while it sends the request. -/
theorem sound_step {c : StreamingClient} (h : Sound c) (hstep : InStep c) {ev : Event} (hquiet : c.sending ev = []) :
    Sound (c.step ev) := by
  rw [StreamingClient.step.eq_def, if_neg (by rw [hstep.alive.1]; exact Bool.false_ne_true)]
  cases ev with
  | call x => exact h.call hstep hquiet
  | nextRecord => exact h.nextRecord
  | ready during =>
      simp only
      split
      · rename_i hremaining
        exact h.onReady hstep hremaining hquiet
      · exact h
  | batch n =>
      simp only
      split
      · exact h.onBatch n
      · exact h
  | signal s =>
      simp only
      split
      · exact h.onSignal s
      · exact h
  | runDeferred =>
      simp only
      split
      · exact h.runDeferred
      · exact h

/-! ### A request that meets a signal -/

/-- A terminal signal to a client that runs writes its state. -/
theorem states_onSignal {c : StreamingClient} (hrunning : c.isTerminal = false) (hvalid : c.sinkValid = some true)
    (s : Signal) : ∃ e, ends e = true ∧ states (c.onSignal s).journal = states c.journal ++ [e] := by
  have hfinish : ∀ (e : ClientState) (told : List Deferred),
      states (c.finish e told).journal = states c.journal ++ [e] := by
    intro e told
    rw [StreamingClient.finish, doTeardown]
    split <;> simp [invalidate, StreamingClient.setState, StreamingClient.record, states]
  cases s with
  | error e =>
      rw [onSignal, if_pos hvalid, handleError, hrunning, if_neg Bool.false_ne_true]
      exact ⟨.error, rfl, hfinish _ _⟩
  | done =>
      rw [onSignal, if_pos hvalid, handleComplete, hrunning, if_neg Bool.false_ne_true]
      exact ⟨.done, rfl, hfinish _ _⟩

/-- **`Streaming` is assigned after the end** that the chain signals while the request is sent. -/
theorem send_not_absorbing {c : StreamingClient} (hrunning : c.isTerminal = false) (hvalid : c.sinkValid = some true)
    (hpipeline : c.pipeline = some .ready) {during : List Signal} (hduring : during ≠ []) :
    ¬ Absorbing (c.send during).journal := by
  obtain ⟨s, rest, rfl⟩ := List.exists_cons_of_ne_nil hduring
  let sent := { c with pipeline := some .started }.record .sendRequest
  have hstart : c.pipelineStart (s :: rest) = (sent.onSignal s).onSignals rest := by
    rw [pipelineStart, hpipeline]
    rfl
  obtain ⟨e, he, hstates⟩ := states_onSignal (c := sent) hrunning hvalid s
  obtain ⟨extra, hextra⟩ := (signalled_onSignals rest (sent.onSignal s)).journal
  have hsent : states sent.journal = states c.journal := (states_append _ _).trans (List.append_nil _)
  have hjournal : states (c.send (s :: rest)).journal =
      states c.journal ++ e :: (states extra ++ [.streaming]) := by
    rw [StreamingClient.send, StreamingClient.setState, StreamingClient.record, states_append, hstart, hextra,
      states_append, hstates, hsent, List.append_assoc, List.append_assoc]
    rfl
  rw [Absorbing, hjournal, List.pairwise_append, List.pairwise_cons]
  rintro ⟨-, ⟨hall, -⟩, -⟩
  exact absurd (he.symm.trans (hall .streaming (by simp))) Bool.true_eq_false.mp

theorem step_not_absorbing {c : StreamingClient} (h : Sound c) (hstep : InStep c) {ev : Event}
    (hsending : c.sending ev ≠ []) : ¬ Absorbing (c.step ev).journal := by
  rw [StreamingClient.step.eq_def, if_neg (by rw [hstep.alive.1]; exact Bool.false_ne_true)]
  rw [sending.eq_def] at hsending
  split at hsending
  · rename_i during
    split at hsending
    · rename_i hguard
      simp only [Bool.and_eq_true, Bool.not_eq_true'] at hguard
      obtain ⟨⟨⟨hrunning, hconnected⟩, hready⟩, hstarted⟩ := hguard
      have hpipeline := ready_of_running h hstep hrunning hready hstarted
      have hvalid := ((h.wired hrunning).resolve_left (hstep.built hready)).1
      have hsend : c.start during = { c with startRequested := true }.send during := by
        rw [start, hrunning, hconnected, hready, hstarted]
        rfl
      change ¬ Absorbing (c.start during).journal
      rw [hsend]
      exact send_not_absorbing (c := { c with startRequested := true }) hrunning hvalid hpipeline hsending
    · exact absurd rfl hsending
  · rename_i during
    split at hsending
    · rename_i hguard
      simp only [Bool.and_eq_true, Bool.not_eq_true', decide_eq_true_iff] at hguard
      obtain ⟨⟨⟨⟨hremaining, hwaiting⟩, hrunning⟩, hrequested⟩, hstarted⟩ := hguard
      obtain ⟨hvalid, hconnecting, -⟩ := connecting_of_running h hstep hrunning hwaiting
      simp only
      rw [if_pos hremaining, onReady_eq hwaiting hrunning hconnecting, hrequested, hstarted]
      exact send_not_absorbing (c := c.marked) rfl hvalid rfl hsending
    · exact absurd rfl hsending
  · exact absurd rfl hsending

/-! ### Runs -/

theorem Absorbing.of_prefix {j j' : List Act} (h : Absorbing j') (hinit : j <+: j') : Absorbing j := by
  obtain ⟨extra, rfl⟩ := hinit
  rw [Absorbing, states_append] at h
  exact (List.pairwise_append.mp h).1

theorem absorbing_run {c : StreamingClient} (h : Sound c) (hstep : InStep c) (evs : List Event)
    (hends : Absorbing (Runs.run step c evs).journal) : Runs.Along (fun c ev => c.sending ev = []) step c evs := by
  induction evs generalizing c with
  | nil => trivial
  | cons ev evs ih =>
      have hquiet : c.sending ev = [] := by
        by_contra hsending
        exact step_not_absorbing h hstep hsending (hends.of_prefix (extends_run (c.step ev) evs))
      exact ⟨hquiet, ih (sound_step h hstep hquiet) (hstep.step ev) hends⟩

/-- **Terminal states are absorbing, and the user is told of an end once**, in exactly the runs in which the chain
signals no end while the request is being sent. -/
theorem absorbing_iff (handlers : Handlers) (hostname : String) (evs : List Event) :
    EndsOnce (Runs.run step { handlers, hostname } evs).journal ↔
      Runs.Along (fun c ev => c.sending ev = []) step { handlers, hostname } evs := by
  have hinit := inStep_initial handlers hostname
  have hsound := sound_initial handlers hostname
  constructor
  · exact fun h => absorbing_run hsound hinit evs h.1
  · intro h
    have hkept : ∀ c ev, (Sound c ∧ InStep c) → c.sending ev = [] → Sound (c.step ev) ∧ InStep (c.step ev) :=
      fun _ ev hc hquiet => ⟨sound_step hc.1 hc.2 hquiet, hc.2.step ev⟩
    have hend := (Runs.run_preserves hkept ⟨hsound, hinit⟩ h).1
    refine ⟨hend.absorbing, ?_⟩
    have htold := hend.told
    split at htold <;> omega

/-- **An error while the request is sent.**  The socket's write fails inside `pipeline_->Start()`: the client is told
of the error, and is streaming. -/
theorem not_endsOnce : ¬ ∀ (handlers : Handlers) (hostname : String) (evs : List Event),
    EndsOnce (Runs.run step { handlers, hostname } evs).journal := by
  intro h
  have hrun := (h { error := true } "hist.databento.com"
    [.call .setRequest, .call (.connect []), .call (.start []),
      .ready [.error { code := .connectionFailed, message := "write() failed", osErrno := 32 }]]).1
  exact absurd hrun (by unfold Absorbing; decide)

end DbnPipe.Client.StreamingClient
