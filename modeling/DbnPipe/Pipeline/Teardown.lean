import DbnPipe.Http.HttpClient
import DbnPipe.Library.Runs
import DbnPipe.Live.CramRules
import DbnPipe.Stream.ZstdDecompressor

/-!
# The downstream after DoClose

`DoClose` of `CramAuth`, `HttpClient` and `ZstdDecompressor` calls `ResetDownstream`, so `GetDownstream` must
not be reached behind it.

* `Stage` — a component by its entry points, the downstream's `OnData` being **any function whatever** in each
  call;
* `Untouched` — a call that reaches no downstream: no signal is given, and what the downstream would do in
  `OnData` makes no difference;
* `Lawful` — what the three components share behind `DoClose`: only a deferred `OnDone` is left to reach the
  downstream;
* `untouched_iff` — a run reaches no downstream behind `DoClose` **exactly if** every `Resume` that completes a
  deferred `OnDone` there finds the component finalized;
* `untouched_after_close` — the theorem, for the three components.
-/

namespace DbnPipe.Teardown

/-! ### Components and their runs -/

/-- A component, by what is its own. -/
structure Stage (σ : Type) where
  onData : (Component σ → Component σ) → Chain → Component σ → Component σ
  onDone : (Component σ → Component σ) → Component σ → Component σ
  processPending : (Component σ → Component σ) → Component σ → Component σ
  flushAndComplete : (Component σ → Component σ) → Component σ → Component σ
  doClose : Component σ → Component σ

/-- A call from outside. -/
inductive Call where
  | data (data : Chain)
  | error (e : Error)
  | done
  | suspend
  | resume
  | close

/-- What happens: a call, with what the downstream does in it, or `DoClose` runs. -/
inductive Event (σ : Type) where
  | call (call : Call) (deliver : Component σ → Component σ)
  | runClose

/-- A component, and whether `downstream_` is still set. -/
structure Attached (σ : Type) where
  comp : Component σ
  attached : Bool

variable {σ : Type} (S : Stage σ)

/-- A call; no `Resume` without its `Suspend`. -/
def Stage.perform (deliver : Component σ → Component σ) (c : Component σ) : Call → Component σ
  | .data data => S.onData deliver data c
  | .error e => c.propagateError e
  | .done => S.onDone deliver c
  | .suspend => c.suspend
  | .resume => if c.suspended then c.resume (S.processPending deliver) (S.flushAndComplete deliver) else c
  | .close => c.requestClose

/-- One event.  `DoClose` runs once, at any time behind the close: at once or from the event loop. -/
def Stage.step (w : Attached σ) : Event σ → Attached σ
  | .call call deliver => { w with comp := S.perform deliver w.comp call }
  | .runClose => if w.attached = true ∧ w.comp.closed = true then ⟨S.doClose w.comp, false⟩ else w

/-- `GetDownstream` is not reached: the downstream is given no signal, and what it does in `OnData` makes no
difference. -/
def Untouched (c : Component σ) (call : Call) : Prop :=
  ∀ deliver, (S.perform deliver c call).signals = c.signals ∧
    ∀ deliver', S.perform deliver' c call = S.perform deliver c call

/-- A call behind `DoClose` does not reach the downstream. -/
def Safe (w : Attached σ) : Event σ → Prop
  | .call call _ => w.attached = false → Untouched S w.comp call
  | .runClose => True

/-- Behind `DoClose`, a `Resume` that completes a deferred `OnDone` finds a calm component. -/
def Settles (calm : Component σ → Prop) (w : Attached σ) : Event σ → Prop
  | .call .resume _ =>
    w.attached = false → w.comp.suspendCount = 1 → w.comp.donePending = true → calm w.comp
  | .call (.data _) _ | .call (.error _) _ | .call .done _ | .call .suspend _ | .call .close _ | .runClose => True

/-! ### What the components share -/

/-- A completed `OnDone` that does not look at the downstream's `OnData`; it gives no signal exactly where the
component is calm. -/
structure Flushed (empty : σ → Prop) (calm : Prop) (signals : List Signal) (d : Component σ) : Prop where
  closed : d.closed = true
  empty : empty d.own
  signals_iff : d.signals = signals ↔ calm

/-- Behind `DoClose` the chains are empty, the guarded calls do nothing, and `FlushAndComplete` has nothing to
flush. -/
structure Lawful (empty : σ → Prop) (calm : Component σ → Prop) : Prop where
  doClose : ∀ c, (S.doClose c).closed = c.closed ∧ empty (S.doClose c).own
  onData : ∀ deliver data c, c.closed = true → S.onData deliver data c = c
  onDone : ∀ deliver c, c.closed = true → S.onDone deliver c = c
  flush : ∀ c, c.closed = true → empty c.own → c.suspended = false →
    ∃ d, (∀ deliver, S.flushAndComplete deliver c = d) ∧ Flushed empty (calm c) c.signals d
  calm_count : ∀ c : Component σ, calm { c with suspendCount := 0, donePending := false } ↔ calm c

variable {S} {empty : σ → Prop} {calm : Component σ → Prop} {w : Attached σ} {c : Component σ}

/-- **A `Resume` behind `DoClose`.** -/
theorem Lawful.resume (hS : Lawful S empty calm) (hc : c.closed = true) (he : empty c.own) :
    ∃ d, (∀ deliver, c.resume (S.processPending deliver) (S.flushAndComplete deliver) = d) ∧
      Flushed empty (c.suspendCount = 1 → c.donePending = true → calm c) c.signals d := by
  by_cases hone : c.suspendCount = 1
  · by_cases hd : c.donePending = true
    · obtain ⟨d, hflush, hflushed⟩ := hS.flush { c with suspendCount := 0, donePending := false } hc he rfl
      refine ⟨d, fun deliver => ?_, hflushed.closed, hflushed.empty, ?_⟩
      · rw [Component.resume_of_closed hone hc, Component.completeDeferred, if_pos ⟨hd, rfl⟩]
        exact hflush deliver
      · rw [hflushed.signals_iff, hS.calm_count]
        exact ⟨fun h _ _ => h, fun h => h hone hd⟩
    · refine ⟨{ c with suspendCount := 0 }, fun deliver => ?_, hc, he, fun _ _ hd' => absurd hd' hd,
        fun _ => rfl⟩
      rw [Component.resume_of_closed hone hc, Component.completeDeferred, if_neg fun h => hd h.1]
  · exact ⟨{ c with suspendCount := c.suspendCount - 1 }, fun deliver => Component.resume_of_ne hone _ _, hc, he,
      fun _ h => absurd h hone, fun _ => rfl⟩

/-- Behind `DoClose`. -/
def Detached (empty : σ → Prop) (w : Attached σ) : Prop :=
  w.attached = false → w.comp.closed = true ∧ empty w.comp.own

/-- A closed component with empty chains stays so. -/
theorem Lawful.perform (hS : Lawful S empty calm) (hc : c.closed = true) (he : empty c.own)
    (deliver : Component σ → Component σ) (call : Call) :
    (S.perform deliver c call).closed = true ∧ empty (S.perform deliver c call).own := by
  cases call with
  | data data =>
    rw [Stage.perform, hS.onData _ _ _ hc]
    exact ⟨hc, he⟩
  | error e =>
    rw [Stage.perform, Component.propagateError, Component.guarded, if_pos hc]
    exact ⟨hc, he⟩
  | done =>
    rw [Stage.perform, hS.onDone _ _ hc]
    exact ⟨hc, he⟩
  | suspend =>
    rw [Stage.perform, Component.suspend_closed, Component.suspend_own]
    exact ⟨hc, he⟩
  | resume =>
    rw [Stage.perform]
    split
    · obtain ⟨d, hd, hflushed⟩ := hS.resume hc he
      rw [hd]
      exact ⟨hflushed.closed, hflushed.empty⟩
    · exact ⟨hc, he⟩
  | close =>
    rw [Stage.perform, Component.requestClose_own]
    exact ⟨Component.requestClose_closed c, he⟩

theorem Lawful.step (hS : Lawful S empty calm) (hw : Detached empty w) (e : Event σ) :
    Detached empty (S.step w e) := by
  cases e with
  | call call deliver =>
    intro ha
    obtain ⟨hc, he⟩ := hw ha
    exact hS.perform hc he deliver call
  | runClose =>
    rw [Stage.step]
    split
    · rename_i hclosed
      intro _
      obtain ⟨h1, h2⟩ := hS.doClose w.comp
      exact ⟨h1.trans hclosed.2, h2⟩
    · exact hw

/-- **One event**: it is safe exactly if it settles. -/
theorem Lawful.safe_iff (hS : Lawful S empty calm) (hw : Detached empty w) (e : Event σ) :
    Safe S w e ↔ Settles calm w e := by
  have hof : ∀ {call : Call},
      (∀ deliver, w.attached = false → (S.perform deliver w.comp call).signals = w.comp.signals) →
      (∀ deliver deliver', w.attached = false → S.perform deliver' w.comp call = S.perform deliver w.comp call) →
      ∀ deliver : Component σ → Component σ, Safe S w (.call call deliver) := fun h1 h2 _ ha deliver =>
    ⟨h1 deliver ha, fun deliver' => h2 deliver deliver' ha⟩
  cases e with
  | runClose => exact Iff.rfl
  | call call deliver =>
    cases call with
    | data data =>
      refine iff_of_true (hof (fun _ ha => ?_) (fun _ _ ha => ?_) deliver) trivial
      · rw [Stage.perform, hS.onData _ _ _ (hw ha).1]
      · rw [Stage.perform, Stage.perform, hS.onData _ _ _ (hw ha).1, hS.onData _ _ _ (hw ha).1]
    | error e =>
      refine iff_of_true (hof (fun _ ha => ?_) (fun _ _ _ => rfl) deliver) trivial
      rw [Stage.perform, Component.propagateError, Component.guarded, if_pos (hw ha).1]
    | done =>
      refine iff_of_true (hof (fun _ ha => ?_) (fun _ _ ha => ?_) deliver) trivial
      · rw [Stage.perform, hS.onDone _ _ (hw ha).1]
      · rw [Stage.perform, Stage.perform, hS.onDone _ _ (hw ha).1, hS.onDone _ _ (hw ha).1]
    | suspend =>
      refine iff_of_true (hof (fun _ _ => ?_) (fun _ _ _ => rfl) deliver) trivial
      rw [Stage.perform, Component.suspend]
      split <;> rfl
    | close =>
      refine iff_of_true (hof (fun _ ha => ?_) (fun _ _ _ => rfl) deliver) trivial
      rw [Stage.perform, Component.requestClose, if_pos (hw ha).1]
    | resume =>
      refine forall_congr' fun ha => ?_
      obtain ⟨d, hd, hflushed⟩ := hS.resume (hw ha).1 (hw ha).2
      by_cases hs : w.comp.suspended = true
      · simp only [Untouched, Stage.perform, if_pos hs, hd, hflushed.signals_iff, implies_true, and_true]
        exact ⟨fun h => h id, fun h _ => h⟩
      · have hne : w.comp.suspendCount ≠ 1 := fun h1 => hs (by rw [Component.suspended_iff, h1]; exact Nat.one_pos)
        simp only [Untouched, Stage.perform, if_neg hs, implies_true, and_self, true_iff]
        exact fun h1 => absurd h1 hne

/-- **A run reaches no downstream behind `DoClose` exactly if all of it settles.** -/
theorem untouched_iff (hS : Lawful S empty calm) (hw : Detached empty w) (events : List (Event σ)) :
    Runs.Along (Safe S) S.step w events ↔ Runs.Along (Settles calm) S.step w events := by
  induction events generalizing w with
  | nil => exact Iff.rfl
  | cons e events ih => exact and_congr (hS.safe_iff hw e) (ih (hS.step hw e))

/-! ### The three components -/

/-- `CramAuth`. -/
def cramAuthStage (sha256 : List Byte → List Byte) : Stage Live.CramAuth where
  onData deliver data c := (Live.onData deliver sha256 data c).1
  onDone := Live.onDone
  processPending := Live.processPending
  flushAndComplete := Live.flushAndComplete
  doClose := Live.doClose

/-- `HttpClient`. -/
def httpClientStage (L : Http.Llhttp) : Stage (Http.HttpClient L) where
  onData deliver data c := (Http.onData deliver [] data c).1
  onDone := Http.onDone
  processPending := Http.processPending
  flushAndComplete := Http.flushAndComplete
  doClose := Http.doClose

/-- `ZstdDecompressor`. -/
def zstdStage (Z : Zstd.ZstdDecoder) (δ : Type) : Stage (Zstd.ZstdDecompressor Z δ) where
  onData := Zstd.onData
  onDone := Zstd.onDone
  processPending := Zstd.processPending
  flushAndComplete := Zstd.flushAndComplete
  doClose := Zstd.doClose

/-- `finalized_` is set: nothing is emitted any more. -/
def Finalized (c : Component σ) : Prop := c.finalized = true

/-- A closed component that has nothing to hand on ends with one signal, or none where it is finalized. -/
theorem flushed_done (he : empty c.own) :
    Flushed empty (Finalized c) c.signals c.emitDone.requestClose := by
  refine ⟨Component.requestClose_closed _, ?_, ?_⟩
  · rw [Component.requestClose_own, Component.emitDone_own]
    exact he
  · obtain ⟨_, _, _, h⟩ := c.emitDone.requestClose_eq
    rw [h, Component.emitDone, Finalized]
    cases hf : c.finalized <;> simp [Component.signal]

theorem flushed_error (e : Error) (he : empty c.own) :
    Flushed empty (Finalized c) c.signals (c.emitError e).requestClose := by
  refine ⟨Component.requestClose_closed _, ?_, ?_⟩
  · rw [(Component.failed c e).own]
    exact he
  · obtain ⟨_, _, _, h⟩ := (c.emitError e).requestClose_eq
    rw [h, Component.emitError, Finalized]
    cases hf : c.finalized <;> simp [Component.signal]

theorem lawful_cramAuth (sha256 : List Byte → List Byte) :
    Lawful (cramAuthStage sha256)
      (fun h => h.streamingChain.empty = true ∧ h.pendingChain.empty = true) Finalized where
  doClose c := ⟨rfl, rfl, rfl⟩
  onData deliver data c hc := by simp only [cramAuthStage, Live.onData, if_pos hc]
  onDone deliver c hc := by simp only [cramAuthStage, Live.onDone, Component.guarded, if_pos hc]
  flush c hc he _ :=
    ⟨c.emitDone.requestClose, fun deliver => Live.flushAndComplete_of_empty deliver he.1 he.2,
      flushed_done he⟩
  calm_count _ := Iff.rfl

theorem lawful_zstd (Z : Zstd.ZstdDecoder) (δ : Type) :
    Lawful (zstdStage Z δ) (fun h => h.outputChain.empty = true) Finalized where
  doClose c := ⟨rfl, rfl⟩
  onData deliver data c hc := by simp only [zstdStage, Zstd.onData, Component.guarded, if_pos hc]
  onDone deliver c hc := by simp only [zstdStage, Zstd.onDone, Component.guarded, if_pos hc]
  flush c hc he _ := by
    have hpending : ∀ deliver, Zstd.processPendingData deliver c = (c, .complete) := fun deliver => by
      simp only [Zstd.processPendingData, hc, Bool.true_or, if_true]
    by_cases hlast : c.own.lastDecompressResult = 0
    · refine ⟨c.emitDone.requestClose, fun deliver => ?_, flushed_done he⟩
      simp only [zstdStage, Zstd.flushAndComplete, hpending, Zstd.complete, hlast, ne_eq, not_true_eq_false, if_false,
        Component.completeWithFlush, Component.flushPendingData, he, if_true, Bool.false_eq_true]
    · refine ⟨Zstd.fail .decompressionError "Incomplete zstd frame" c, fun deliver => ?_, flushed_error _ he⟩
      simp only [zstdStage, Zstd.flushAndComplete, hpending, Zstd.complete, ne_eq, hlast, not_false_eq_true, if_true]
  calm_count _ := Iff.rfl

/-- The condition for `HttpClient`: it is finalized, and `llhttp_finish` completes no successful message, whose
`ResetMessageState` would clear the flag. -/
def FinishedCalm {L : Http.Llhttp} (c : Component (Http.HttpClient L)) : Prop :=
  c.finalized = true ∧
    ¬(c.own.messageComplete = false ∧ c.own.errno = .ok ∧ L.finish c.own.parser = .safeWithCallback ∧
      c.own.statusCode < 300)

section HttpClient

variable {L : Http.Llhttp} {c : Component (Http.HttpClient L)}

/-- Nothing is held. -/
def HttpEmpty (h : Http.HttpClient L) : Prop := h.pendingChain.empty = true ∧ h.pendingInput.empty = true

theorem complete_of_empty (he : c.own.pendingChain.empty = true)
    (deliver : Component (Http.HttpClient L) → Component (Http.HttpClient L)) :
    Http.complete deliver c = c.emitDone.requestClose := by
  simp only [Http.complete, Component.completeWithFlush, Component.flushPendingData, he, if_true, Bool.false_eq_true,
    if_false]

/-- Behind `llhttp_finish`, where that has not ended the component. -/
theorem flushed_rest (he : HttpEmpty c.own) :
    ∃ d, (∀ deliver, (if 300 ≤ c.own.statusCode ∧ c.finalized = false then Http.emitHttpStatusError c
        else Http.complete deliver c) = d) ∧ Flushed HttpEmpty (Finalized c) c.signals d := by
  split
  · exact ⟨_, fun _ => rfl, flushed_error _ he⟩
  · exact ⟨_, complete_of_empty he.1, flushed_done he⟩

/-- A successful message that `llhttp_finish` completes clears `finalized_`. -/
theorem succeed_of_empty (he : HttpEmpty c.own) (hs : c.suspended = false)
    (deliver : Component (Http.HttpClient L) → Component (Http.HttpClient L)) :
    Http.succeed deliver (Http.recordMessage c) = (Http.resetMessageState (Http.recordMessage c).emitDone, true) := by
  have hp : (Http.recordMessage c).own.pendingChain.empty = true := he.1
  have hs' : (Http.recordMessage c).suspended = false := hs
  simp only [Http.succeed, hp, if_true, Http.completeMessage, hs', Bool.false_eq_true, if_false]

/-- The signals of `EmitDone` begin with the ones before. -/
theorem length_emitDone (d : Component σ) : d.signals.length ≤ d.emitDone.signals.length := by
  rw [Component.emitDone]
  split <;> simp [Component.signal]

/-- Behind it the completion is signalled in any case. -/
theorem flushed_reset (he : HttpEmpty c.own) {d : Component (Http.HttpClient L)}
    (hd : d = Http.resetMessageState (Http.recordMessage c).emitDone) :
    Flushed HttpEmpty False c.signals d.emitDone.requestClose := by
  have hempty : HttpEmpty d.own := by
    rw [hd]
    refine ⟨rfl, ?_⟩
    rw [Http.resetMessageState, Component.emitDone_own]
    exact he.2
  have hflushed : Flushed HttpEmpty _ _ _ := flushed_done hempty
  refine ⟨hflushed.closed, hflushed.empty, ⟨fun h => ?_, False.elim⟩⟩
  have hlen := length_emitDone (Http.recordMessage c)
  have hsignals : d.signals = (Http.recordMessage c).emitDone.signals := by rw [hd, Http.resetMessageState]
  have hmore : d.emitDone.requestClose.signals = d.signals ++ [.done] := by
    obtain ⟨_, _, _, h⟩ := d.emitDone.requestClose_eq
    have hf : d.finalized = false := by rw [hd, Http.resetMessageState]
    rw [h, Component.emitDone, hf]
    simp [Component.signal]
  have hrec : (Http.recordMessage c).signals = c.signals := rfl
  rw [hmore, hsignals] at h
  have := congrArg List.length h
  simp only [List.length_append, List.length_singleton] at this
  rw [hrec] at hlen
  omega

/-- `FlushAndComplete` without pending input does not look at the downstream; it gives no signal exactly where the
client is calm. -/
def Settled (c : Component (Http.HttpClient L)) : Prop :=
  ∃ d, (∀ deliver, Http.flushRest deliver c = d) ∧ Flushed HttpEmpty (FinishedCalm c) c.signals d

/-- `llhttp_finish` is not called, calls nothing, or finds nothing wrong. -/
theorem settled_of_quiet (he : HttpEmpty c.own)
    (hquiet : c.own.messageComplete = true ∨ c.own.errno ≠ .ok ∨ L.finish c.own.parser = .safe) :
    Settled c := by
  obtain ⟨d, hd, hflushed⟩ := flushed_rest he
  refine ⟨d, fun deliver => ?_, hflushed.closed, hflushed.empty, hflushed.signals_iff.trans ?_⟩
  · have hfinish : Http.finishMessage deliver c = (c, false) := by
      rcases hquiet with h | h | h
      · rw [Http.finishMessage, if_pos h]
      · rw [Http.finishMessage, Http.finish, if_pos h]
        split <;> rfl
      · rw [Http.finishMessage, Http.finish, h]
        split
        · rfl
        · split <;> rfl
    rw [Http.flushRest, hfinish]
    exact hd deliver
  · refine ⟨fun hf => ⟨hf, fun hcon => ?_⟩, fun h => h.1⟩
    rcases hquiet with h | h | h
    · exact absurd (hcon.1.symm.trans h) Bool.false_ne_true
    · exact h hcon.2.1
    · exact absurd (hcon.2.2.1.symm.trans h) (by simp)

/-- `llhttp_finish` finds an open message that the end of the connection does not end. -/
theorem settled_of_unsafe (he : HttpEmpty c.own) (hm : c.own.messageComplete ≠ true) (hok : c.own.errno = .ok)
    {name : String} (hfin : L.finish c.own.parser = .unsafeEof name) : Settled c := by
  have hflushed : Flushed HttpEmpty _ c.signals _ := flushed_error { code := .httpError, message := name } he
  refine ⟨_, fun deliver => ?_, hflushed.closed, hflushed.empty, hflushed.signals_iff.trans ?_⟩
  · have hfinish : Http.finish deliver c = (c, .other name) := by
      rw [Http.finish, if_neg (not_not_intro hok), hfin]
    rw [Http.flushRest, Http.finishMessage, if_neg hm, hfinish]
    rfl
  · refine ⟨fun hf => ⟨hf, fun hcon => ?_⟩, fun h => h.1⟩
    exact absurd (hcon.2.2.1.symm.trans hfin) (by simp)

/-- `llhttp_finish` ends the message: a failed one ends the client, a successful one is signalled and signalled
again. -/
theorem settled_of_callback (he : HttpEmpty c.own) (hs : c.suspended = false) (hm : c.own.messageComplete = false)
    (hok : c.own.errno = .ok) (hfin : L.finish c.own.parser = .safeWithCallback) : Settled c := by
  have hm' : c.own.messageComplete ≠ true := by simp [hm]
  by_cases hstatus : 300 ≤ c.own.statusCode
  · have hr : 300 ≤ (Http.recordMessage c).own.statusCode := hstatus
    have hflushed : Flushed HttpEmpty (Finalized (Http.recordMessage c)) (Http.recordMessage c).signals
        (Http.emitHttpStatusError (Http.recordMessage c)) := flushed_error _ he
    refine ⟨_, fun deliver => ?_, hflushed.closed, hflushed.empty, hflushed.signals_iff.trans ?_⟩
    · have hfinish : Http.finish deliver c = (Http.emitHttpStatusError (Http.recordMessage c), .user) := by
        simp only [Http.finish, if_neg (not_not_intro hok), hfin, Http.onMessageComplete, if_pos hr,
          Bool.false_eq_true, if_false]
      rw [Http.flushRest, Http.finishMessage, if_neg hm', hfinish]
      rfl
    · exact ⟨fun hf => ⟨hf, fun hcon => absurd hcon.2.2.2 (Nat.not_lt.mpr hstatus)⟩, fun h => h.1⟩
  · refine ⟨_, fun deliver => ?_, (flushed_reset he rfl).closed, (flushed_reset he rfl).empty,
      (flushed_reset he rfl).signals_iff.trans ?_⟩
    · have hr : ¬300 ≤ (Http.recordMessage c).own.statusCode := hstatus
      have hfinish : Http.finish deliver c = (Http.resetMessageState (Http.recordMessage c).emitDone, .ok) := by
        simp only [Http.finish, if_neg (not_not_intro hok), hfin, Http.onMessageComplete, if_neg hr,
          succeed_of_empty he hs, if_true]
      have hzero : ¬(300 ≤ (Http.resetMessageState (Http.recordMessage c).emitDone).own.statusCode ∧
          (Http.resetMessageState (Http.recordMessage c).emitDone).finalized = false) := by
        rw [Http.resetMessageState]
        simp
      simp only [Http.flushRest, Http.finishMessage, if_neg hm', hfinish, Http.handleParseError, Bool.false_eq_true,
        if_false, if_neg hzero]
      exact complete_of_empty rfl deliver
    · exact ⟨False.elim, fun h => h.2 ⟨hm, hok, hfin, Nat.not_le.mp hstatus⟩⟩

theorem settled (he : HttpEmpty c.own) (hs : c.suspended = false) : Settled c := by
  by_cases hm : c.own.messageComplete = true
  · exact settled_of_quiet he (.inl hm)
  by_cases hok : c.own.errno = .ok
  · cases hfin : L.finish c.own.parser with
    | safe => exact settled_of_quiet he (.inr (.inr hfin))
    | safeWithCallback => exact settled_of_callback he hs (by simpa using hm) hok hfin
    | unsafeEof name => exact settled_of_unsafe he hm hok hfin
  · exact settled_of_quiet he (.inr (.inl hok))

theorem lawful_httpClient (L : Http.Llhttp) : Lawful (httpClientStage L) HttpEmpty FinishedCalm where
  doClose c := ⟨rfl, rfl, rfl⟩
  onData deliver data c hc := by simp only [httpClientStage, Http.onData, if_pos hc]
  onDone deliver c hc := by simp only [httpClientStage, Http.onDone, Component.guarded, if_pos hc]
  flush c hc he hs := by
    obtain ⟨d, hd, hflushed⟩ := settled he hs
    refine ⟨d, fun deliver => ?_, hflushed⟩
    simp only [httpClientStage, Http.flushAndComplete, he.2, if_true, hd deliver]
  calm_count _ := Iff.rfl

end HttpClient

/-! ### The theorem -/

/-- **A run of a component reaches no downstream behind `DoClose` exactly if every `Resume` there that completes
a deferred `OnDone` finds the component finalized**; `HttpClient` must also not complete a message in it. -/
theorem untouched_after_close (sha256 : List Byte → List Byte) (L : Http.Llhttp) (Z : Zstd.ZstdDecoder) (δ : Type) :
    (∀ (c : Component Live.CramAuth) (events : List (Event Live.CramAuth)),
      Runs.Along (Safe (cramAuthStage sha256)) (cramAuthStage sha256).step ⟨c, true⟩ events ↔
        Runs.Along (Settles Finalized) (cramAuthStage sha256).step ⟨c, true⟩ events) ∧
    (∀ (c : Component (Http.HttpClient L)) (events : List (Event (Http.HttpClient L))),
      Runs.Along (Safe (httpClientStage L)) (httpClientStage L).step ⟨c, true⟩ events ↔
        Runs.Along (Settles FinishedCalm) (httpClientStage L).step ⟨c, true⟩ events) ∧
    (∀ (c : Component (Zstd.ZstdDecompressor Z δ)) (events : List (Event (Zstd.ZstdDecompressor Z δ))),
      Runs.Along (Safe (zstdStage Z δ)) (zstdStage Z δ).step ⟨c, true⟩ events ↔
        Runs.Along (Settles Finalized) (zstdStage Z δ).step ⟨c, true⟩ events) :=
  ⟨fun _ _ => untouched_iff (lawful_cramAuth sha256) (fun h => absurd h (by simp)) _,
    fun _ _ => untouched_iff (lawful_httpClient L) (fun h => absurd h (by simp)) _,
    fun _ _ => untouched_iff (lawful_zstd Z δ) (fun h => absurd h (by simp)) _⟩

/-- The calls Suspend, OnDone, Close, Resume, the posted `DoClose` before the last. -/
def closedWhileSuspended : List (Event (Zstd.ZstdDecompressor (Zstd.canned [] []) Unit)) :=
  [.call .suspend id, .call .done id, .call .close id, .runClose, .call .resume id]

/-- The run that `Suspend`, `OnDone`, `Close` and `Resume` make of a new decompressor reaches `GetDownstream` in
the last call. -/
theorem not_untouched_after_close :
    ¬Runs.Along (Safe (zstdStage (Zstd.canned [] []) Unit)) (zstdStage (Zstd.canned [] []) Unit).step
      ⟨Zstd.newZstdDecompressor (Zstd.canned [] []) (), true⟩ closedWhileSuspended := by
  intro h
  have hsettles := (untouched_iff (lawful_zstd (Zstd.canned [] []) Unit) (fun h => absurd h (by simp)) _).mp h
  exact Bool.false_ne_true (hsettles.2.2.2.2.1 rfl rfl rfl)

end DbnPipe.Teardown
