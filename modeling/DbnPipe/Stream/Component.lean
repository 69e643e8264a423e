import DbnPipe.Stream.BufferChain
import Mathlib.Data.Int.Notation
import Mathlib.Logic.Function.Iterate

/-!
# Pipeline components

`lib/stream/error.hpp` and the CRTP base `PipelineComponent` of `lib/stream/component.hpp`, generic in the
state `σ` of the derived class.

* `Component σ` — the base's members, the calls made to the upstream and the terminal signals given to the
  downstream, next to the derived part;
* `enter` / `leave` — construction and destruction of a `ProcessingGuard`;
* `suspend` / `resume` — **the suspend count**, with the derived class's `ProcessPending` and
  `FlushAndComplete` as parameters;
* `emitError`, `emitDone`, `forwardData`, `completeWithFlush` — the downstream helpers.

`ScheduleClose` posts `DoClose` to the event loop: `closeScheduled` is the posted task.  A component without
a defer function runs `DoClose` as its last guard is released, which is the run in which the task is next.
-/

namespace DbnPipe

/-- `ErrorCode`. -/
inductive ErrorCode where
  | connectionFailed | connectionClosed | dnsResolutionFailed
  | authFailed | invalidApiKey
  | invalidGreeting | invalidChallenge | parseError | bufferOverflow
  | invalidDataset | invalidSymbol | invalidSchema | invalidTimeRange
  | invalidState
  | tlsHandshakeFailed | certificateError
  | httpError
  | decompressionError
  | unauthorized | rateLimited | notFound | validationError | serverError
deriving DecidableEq, Repr

/-- `Error`; `retryAfter` is in milliseconds. -/
structure Error where
  code : ErrorCode
  message : String
  osErrno : ℤ := 0
  retryAfter : Option ℤ := none
deriving DecidableEq, Repr

/-- Bytes as a string of the same length. -/
def ofBytes (bytes : List Byte) : String := String.ofList (bytes.map fun b => Char.ofNat b.toNat)

/-- A terminal signal to the downstream stage. -/
inductive Signal where
  | error (e : Error)
  | done
deriving DecidableEq, Repr

/-- `PipelineComponent`, the derived part last.  `upstreamSuspends` and `upstreamResumes` count the calls
made to `upstream_`; `signals` are the terminal signals given to the downstream, in order. -/
structure Component (σ : Type) where
  suspendCount : ℕ := 0
  donePending : Bool := false
  finalized : Bool := false
  closed : Bool := false
  closePending : Bool := false
  closeScheduled : Bool := false
  processingCount : ℕ := 0
  upstreamSuspends : ℕ := 0
  upstreamResumes : ℕ := 0
  signals : List Signal := []
  own : σ

namespace Component

variable {σ : Type}

/-- `IsSuspended`. -/
def suspended (c : Component σ) : Bool := decide (0 < c.suspendCount)

/-- `DeferOnDone`. -/
def deferOnDone (c : Component σ) : Component σ := { c with donePending := true }

/-! ### Guards and closing -/

/-- `ScheduleClose`. -/
def scheduleClose (c : Component σ) : Component σ :=
  if c.closeScheduled then c else { c with closeScheduled := true, closePending := false }

/-- A `ProcessingGuard` is constructed. -/
def enter (c : Component σ) : Component σ := { c with processingCount := c.processingCount + 1 }

/-- An active `ProcessingGuard` is destroyed. -/
def leave (c : Component σ) : Component σ :=
  let c := { c with processingCount := c.processingCount - 1 }
  if c.processingCount = 0 ∧ c.closePending = true then c.scheduleClose else c

/-- A function body under `TryGuard`. -/
def guarded (body : Component σ → Component σ) (c : Component σ) : Component σ :=
  if c.closed then c else (body c.enter).leave

/-- `RequestClose`; no component modelled here has watchers of its own. -/
def requestClose (c : Component σ) : Component σ :=
  if c.closed then c
  else if 0 < c.processingCount then { c with closed := true, closePending := true }
  else { c with closed := true }.scheduleClose

/-! ### Downstream helpers -/

/-- Give a signal to the downstream, under a guard of its own. -/
def signal (s : Signal) (c : Component σ) : Component σ :=
  let c := c.enter
  { c with signals := c.signals ++ [s] }.leave

/-- `EmitError`. -/
def emitError (e : Error) (c : Component σ) : Component σ :=
  if c.finalized then c else { c with finalized := true }.signal (.error e)

/-- `EmitDone`. -/
def emitDone (c : Component σ) : Component σ :=
  if c.finalized then c else { c with finalized := true }.signal .done

/-- `PropagateError`. -/
def propagateError (e : Error) : Component σ → Component σ :=
  guarded fun c => (c.emitError e).requestClose

/-- `ForwardData` of the member `chain`; `deliver` is the downstream's `OnData` on it. -/
def forwardData (chain : σ → Chain) (deliver : Component σ → Component σ) (c : Component σ) :
    Component σ × Bool :=
  if (chain c.own).empty then (c, false)
  else
    let c := deliver c
    (c, c.suspended)

/-- `FlushPendingData` of the member `chain`. -/
def flushPendingData (chain : σ → Chain) (deliver : Component σ → Component σ) (c : Component σ) :
    Component σ × Bool :=
  if (chain c.own).empty then (c, false)
  else
    let c := deliver c
    if c.suspended then (c.deferOnDone, true)
    else if !(chain c.own).empty then
      let msg := "Incomplete data (" ++ toString (chain c.own).size ++ " bytes remaining)"
      ((c.emitError { code := .parseError, message := msg }).requestClose, true)
    else (c, false)

/-- `CompleteWithFlush` of the member `chain`. -/
def completeWithFlush (chain : σ → Chain) (deliver : Component σ → Component σ) (c : Component σ) :
    Component σ × Bool :=
  let r := c.flushPendingData chain deliver
  if r.2 then (r.1, false) else (r.1.emitDone, true)

/-! ### Backpressure -/

/-- `Suspend`. -/
def suspend (c : Component σ) : Component σ :=
  if c.suspendCount = 0 then
    { c with suspendCount := c.suspendCount + 1, upstreamSuspends := c.upstreamSuspends + 1 }
  else { c with suspendCount := c.suspendCount + 1 }

/-- `if (!IsSuspended() && upstream_) upstream_->Resume()`, an upstream being set. -/
def resumeUpstream (c : Component σ) : Component σ :=
  if c.suspended then c else { c with upstreamResumes := c.upstreamResumes + 1 }

/-- `done_pending_ = false`. -/
def clearDone (c : Component σ) : Component σ := { c with donePending := false }

/-- The deferred `OnDone` at the end of `Resume`. -/
def completeDeferred (flushAndComplete : Component σ → Component σ) (c : Component σ) : Component σ :=
  if c.donePending = true ∧ c.suspended = false then flushAndComplete c.clearDone else c

/-- `Resume`; the assertion `prev > 0` is the caller's obligation. -/
def resume (processPending flushAndComplete : Component σ → Component σ) (c : Component σ) :
    Component σ :=
  let prev := c.suspendCount
  let c := { c with suspendCount := prev - 1 }
  if prev = 1 then
    if c.closed then c.completeDeferred flushAndComplete
    else (completeDeferred flushAndComplete (processPending c.enter).resumeUpstream).leave
  else c

/-- The state in which `ProcessPending` starts. -/
def resumed (c : Component σ) : Component σ := enter { c with suspendCount := 0 }

/-! ### What the helpers leave alone -/

theorem suspended_iff (c : Component σ) : c.suspended = true ↔ 0 < c.suspendCount := by
  simp [suspended]

theorem not_suspended_iff (c : Component σ) : c.suspended = false ↔ c.suspendCount = 0 := by
  simp [suspended]

/-- A guard touches the guard count and the closing flags only. -/
theorem leave_eq (c : Component σ) :
    ∃ pending scheduled, c.leave =
      { c with processingCount := c.processingCount - 1
               closePending := pending
               closeScheduled := scheduled } := by
  rw [leave, scheduleClose]
  split
  · split
    · exact ⟨c.closePending, c.closeScheduled, rfl⟩
    · exact ⟨false, true, rfl⟩
  · exact ⟨c.closePending, c.closeScheduled, rfl⟩

@[simp] theorem enter_own (c : Component σ) : c.enter.own = c.own := rfl
@[simp] theorem enter_closed (c : Component σ) : c.enter.closed = c.closed := rfl
@[simp] theorem enter_suspendCount (c : Component σ) : c.enter.suspendCount = c.suspendCount := rfl
@[simp] theorem enter_suspended (c : Component σ) : c.enter.suspended = c.suspended := rfl
@[simp] theorem enter_finalized (c : Component σ) : c.enter.finalized = c.finalized := rfl
@[simp] theorem enter_donePending (c : Component σ) : c.enter.donePending = c.donePending := rfl
@[simp] theorem enter_signals (c : Component σ) : c.enter.signals = c.signals := rfl

section Leave

variable (c : Component σ)

@[simp] theorem leave_own : c.leave.own = c.own := by
  obtain ⟨_, _, h⟩ := c.leave_eq
  rw [h]

@[simp] theorem leave_closed : c.leave.closed = c.closed := by
  obtain ⟨_, _, h⟩ := c.leave_eq
  rw [h]

@[simp] theorem leave_suspendCount : c.leave.suspendCount = c.suspendCount := by
  obtain ⟨_, _, h⟩ := c.leave_eq
  rw [h]

@[simp] theorem leave_suspended : c.leave.suspended = c.suspended := by
  rw [suspended, suspended, leave_suspendCount]

@[simp] theorem leave_finalized : c.leave.finalized = c.finalized := by
  obtain ⟨_, _, h⟩ := c.leave_eq
  rw [h]

@[simp] theorem leave_donePending : c.leave.donePending = c.donePending := by
  obtain ⟨_, _, h⟩ := c.leave_eq
  rw [h]

@[simp] theorem leave_signals : c.leave.signals = c.signals := by
  obtain ⟨_, _, h⟩ := c.leave_eq
  rw [h]

@[simp] theorem leave_upstreamSuspends : c.leave.upstreamSuspends = c.upstreamSuspends := by
  obtain ⟨_, _, h⟩ := c.leave_eq
  rw [h]

@[simp] theorem leave_upstreamResumes : c.leave.upstreamResumes = c.upstreamResumes := by
  obtain ⟨_, _, h⟩ := c.leave_eq
  rw [h]

end Leave

/-- Only a requested close is ever scheduled. -/
theorem leave_scheduled {c : Component σ}
    (h : c.leave.closePending = true ∨ c.leave.closeScheduled = true) :
    c.closePending = true ∨ c.closeScheduled = true := by
  rw [leave, scheduleClose] at h
  split at h
  · rename_i hcond
    exact Or.inl hcond.2
  · exact h

theorem suspend_own (c : Component σ) : c.suspend.own = c.own := by
  rw [suspend]
  split <;> rfl

/-- Closing touches the closing flags only. -/
theorem requestClose_eq (c : Component σ) :
    ∃ closed pending scheduled, c.requestClose =
      { c with closed := closed, closePending := pending, closeScheduled := scheduled } := by
  rw [requestClose, scheduleClose]
  split
  · exact ⟨c.closed, c.closePending, c.closeScheduled, rfl⟩
  · split
    · exact ⟨true, true, c.closeScheduled, rfl⟩
    · split
      · exact ⟨true, c.closePending, c.closeScheduled, rfl⟩
      · exact ⟨true, false, true, rfl⟩

theorem requestClose_own (c : Component σ) : c.requestClose.own = c.own := by
  obtain ⟨_, _, _, h⟩ := c.requestClose_eq
  rw [h]

theorem emitDone_own (c : Component σ) : c.emitDone.own = c.own := by
  rw [emitDone]
  split <;> simp [signal]

theorem emitDone_finalized (c : Component σ) : c.emitDone.finalized = true := by
  rw [emitDone]
  split
  · assumption
  · simp [signal]

/-- A terminal signal is given once. -/
theorem signals_error (c : Component σ) (e : Error) :
    (c.emitError e).requestClose.signals = if c.finalized then c.signals else c.signals ++ [.error e] := by
  obtain ⟨_, _, _, h⟩ := (c.emitError e).requestClose_eq
  rw [h, emitError]
  split <;> simp [signal]

theorem signals_done (c : Component σ) :
    c.emitDone.requestClose.signals = if c.finalized then c.signals else c.signals ++ [.done] := by
  obtain ⟨_, _, _, h⟩ := c.emitDone.requestClose_eq
  rw [h, emitDone]
  split <;> simp [signal]

/-- A component that counts its signals by the flag has given one. -/
theorem signals_ne_nil {c : Component σ} (h : c.signals.length = if c.finalized then 1 else 0)
    (hf : c.finalized = true) : c.signals ≠ [] := by
  rw [hf, if_pos rfl] at h
  exact List.ne_nil_of_length_pos (Nat.lt_of_lt_of_eq Nat.one_pos h.symm)

theorem error_donePending (c : Component σ) (e : Error) :
    (c.emitError e).requestClose.donePending = c.donePending := by
  obtain ⟨_, _, _, h⟩ := (c.emitError e).requestClose_eq
  rw [h, emitError]
  split <;> simp [signal]

theorem done_donePending (c : Component σ) : c.emitDone.requestClose.donePending = c.donePending := by
  obtain ⟨_, _, _, h⟩ := c.emitDone.requestClose_eq
  rw [h, emitDone]
  split <;> simp [signal]

theorem resumeUpstream_closed (c : Component σ) : c.resumeUpstream.closed = c.closed := by
  rw [resumeUpstream]
  split <;> rfl

theorem suspend_closed (c : Component σ) : c.suspend.closed = c.closed := by
  rw [suspend]
  split <;> rfl

/-- `Suspend`, some times, changes the counts only. -/
theorem iterate_suspend (n : ℕ) (c : Component σ) :
    ∃ upstream, Component.suspend^[n] c =
      { c with suspendCount := c.suspendCount + n, upstreamSuspends := upstream } := by
  induction n generalizing c with
  | zero => exact ⟨c.upstreamSuspends, rfl⟩
  | succ n ih =>
    obtain ⟨upstream, h⟩ := ih c.suspend
    have hadd : c.suspendCount + 1 + n = c.suspendCount + (n + 1) := by omega
    refine ⟨upstream, ?_⟩
    rw [Function.iterate_succ_apply, h, Component.suspend]
    split <;> simp only [hadd]

/-- `Resume` of an open component, by what the count was. -/
theorem resume_of_ne {c : Component σ} (h : c.suspendCount ≠ 1) (pp fc : Component σ → Component σ) :
    c.resume pp fc = { c with suspendCount := c.suspendCount - 1 } := by
  simp only [resume, if_neg h]

theorem resume_of_eq {c : Component σ} (h : c.suspendCount = 1) (hc : c.closed = false)
    (pp fc : Component σ → Component σ) :
    c.resume pp fc = (completeDeferred fc (pp c.resumed).resumeUpstream).leave := by
  simp only [resume, h, hc, resumed, if_true, Bool.false_eq_true, if_false, Nat.sub_self]

theorem resume_of_closed {c : Component σ} (h : c.suspendCount = 1) (hc : c.closed = true)
    (pp fc : Component σ → Component σ) :
    c.resume pp fc = completeDeferred fc { c with suspendCount := 0 } := by
  simp only [resume, h, hc, if_true, Nat.sub_self]

/-! ### Ending a component -/

/-- What a terminal signal and a close do to a component that is open and has not been finalized. -/
structure Ended (c c' : Component σ) (s : Signal) : Prop where
  closed : c'.closed = true
  finalized : c'.finalized = true
  signals : c'.signals = c.signals ++ [s]
  own : c'.own = c.own
  suspendCount : c'.suspendCount = c.suspendCount
  donePending : c'.donePending = c.donePending

theorem ended_requestClose {c d : Component σ} {s : Signal} (hc : d.closed = false)
    (hf : d.finalized = true) (hs : d.signals = c.signals ++ [s]) (ho : d.own = c.own)
    (hn : d.suspendCount = c.suspendCount) (hd : d.donePending = c.donePending) :
    Ended c d.requestClose s := by
  rw [requestClose, hc]
  simp only [Bool.false_eq_true, if_false]
  split
  · exact ⟨rfl, hf, hs, ho, hn, hd⟩
  · rw [scheduleClose]
    split <;> exact ⟨rfl, hf, hs, ho, hn, hd⟩

theorem ended_error {c : Component σ} (hc : c.closed = false) (hf : c.finalized = false) (e : Error) :
    Ended c (c.emitError e).requestClose (.error e) := by
  apply ended_requestClose <;> simp [emitError, hf, signal, enter, hc]

theorem ended_done {c : Component σ} (hc : c.closed = false) (hf : c.finalized = false) :
    Ended c c.emitDone.requestClose .done := by
  apply ended_requestClose <;> simp [emitDone, hf, signal, enter, hc]

/-- A component that is closed and finalized is left alone. -/
theorem error_of_closed {c : Component σ} (hc : c.closed = true) (hf : c.finalized = true) (e : Error) :
    (c.emitError e).requestClose = c := by
  simp [emitError, requestClose, hc, hf]

theorem done_of_closed {c : Component σ} (hc : c.closed = true) (hf : c.finalized = true) :
    c.emitDone.requestClose = c := by
  simp [emitDone, requestClose, hc, hf]

/-- What reporting an error and closing do to any component: an error is added at most. -/
structure Failed (c c' : Component σ) : Prop where
  closed : c'.closed = true
  finalized : c'.finalized = true
  own : c'.own = c.own
  suspendCount : c'.suspendCount = c.suspendCount
  donePending : c'.donePending = c.donePending
  signals : ∀ s ∈ c'.signals, s ∈ c.signals ∨ ∃ e, s = .error e

theorem requestClose_closed (c : Component σ) : c.requestClose.closed = true := by
  rw [requestClose]
  split
  · assumption
  · split
    · rfl
    · rw [scheduleClose]
      split <;> rfl

theorem failed (c : Component σ) (e : Error) : Failed c (c.emitError e).requestClose := by
  have hclosed := (c.emitError e).requestClose_closed
  obtain ⟨_, _, _, h⟩ := (c.emitError e).requestClose_eq
  cases hf : c.finalized with
  | true =>
    have he : c.emitError e = c := by rw [emitError, hf, if_pos rfl]
    rw [he] at h hclosed ⊢
    refine ⟨hclosed, ?_, ?_, ?_, ?_, fun s hs => Or.inl ?_⟩
    · rw [h]; exact hf
    · rw [h]
    · rw [h]
    · rw [h]
    · rw [h] at hs
      exact hs
  | false =>
    have he : c.emitError e = { c with finalized := true }.signal (.error e) := by
      rw [emitError, hf, if_neg (by simp)]
    rw [he] at h hclosed ⊢
    refine ⟨hclosed, ?_, ?_, ?_, ?_, fun s hs => ?_⟩
    · rw [h]; simp [signal]
    · rw [h]; simp [signal]
    · rw [h]; simp [signal]
    · rw [h]; simp [signal]
    · rw [h] at hs
      have hs' : s ∈ c.signals ++ [.error e] := by simpa [signal] using hs
      rcases List.mem_append.mp hs' with hs' | hs'
      · exact Or.inl hs'
      · exact Or.inr ⟨e, List.mem_singleton.mp hs'⟩

end Component

end DbnPipe
