import DbnPipe.Stream.Component

/-!
# Retries of the API clients

`RetryPolicy`, `ResultSink`, and the chain of timer callbacks `CallApiWithRetry` that `SymbologyClient` and
`MetadataClient` share.

* `RetryConfig`, `RetryPolicy` — **the budget and the delays**: `shouldRetry`, `getNextDelay`, `recordAttempt`;
* `ResultSink` — hands over the first result only, and none once invalidated;
* `Call` — one call of a client: its policy, the sinks of its attempts, its timers, and the journal of what it did;
* `callApiWithRetry`, `step` — **an attempt**, and what the sinks and the timers do to the call.
-/

namespace DbnPipe.Api

/-- `RetryConfig`; the delays are in milliseconds. -/
structure RetryConfig where
  maxRetries : UInt32 := 3
  initialDelay : ℤ := 1000
  maxDelay : ℤ := 30000
  backoffMultiplier : Float := 2.0
  jitterFactor : Float := 0.1

/-- `ApiDefaults`, the configuration of the clients where none is given. -/
def RetryConfig.apiDefaults : RetryConfig :=
  { maxRetries := 3, initialDelay := 1000, maxDelay := 10000, backoffMultiplier := 2.0, jitterFactor := 0.1 }

/-- What a generator, seeded for it, would give a distribution between two bounds. -/
abbrev Draw := Float → Float → Float

/-- `uniform_real_distribution`: a number **from the first bound on, below the second**. -/
def uniform (dis : Draw) (low high : Float) : Float := if low < dis low high ∧ dis low high < high then dis low high else low

/-- What the distribution can give. -/
def Drawn (low high x : Float) : Prop := x = low ∨ (low < x ∧ x < high)

theorem uniform_drawn (dis : Draw) (low high : Float) : Drawn low high (uniform dis low high) := by
  rw [uniform]
  split
  · exact .inr (by assumption)
  · exact .inl rfl

/-- `RetryPolicy`. -/
structure RetryPolicy where
  config : RetryConfig := {}
  attempts : UInt32 := 0

namespace RetryPolicy

/-- `RecordAttempt`. -/
def recordAttempt (p : RetryPolicy) : RetryPolicy := { p with attempts := p.attempts + 1 }

/-- `IsRetryable`. -/
def isRetryable : ErrorCode → Bool
  | .connectionFailed | .dnsResolutionFailed | .serverError | .tlsHandshakeFailed | .rateLimited => true
  | _ => false

/-- `ShouldRetry(const Error&)`. -/
def shouldRetry (p : RetryPolicy) (e : Error) : Bool :=
  if isRetryable e.code then decide (p.attempts < p.config.maxRetries) else false

/-- The delay of `CalculateBackoff`, with a jitter. -/
def backoff (p : RetryPolicy) (jitter : Float) : ℤ :=
  let delayMs := (· * p.config.backoffMultiplier)^[p.attempts.toNat] (Float.ofInt p.config.initialDelay)
  let maxDelay := Float.ofInt p.config.maxDelay
  let delayMs := if maxDelay < delayMs then maxDelay else delayMs
  let delayMs := delayMs * jitter
  delayMs.toInt64.toInt

/-- `CalculateBackoff`. -/
def calculateBackoff (p : RetryPolicy) (dis : Draw) : ℤ :=
  p.backoff (uniform dis (1.0 - p.config.jitterFactor) (1.0 + p.config.jitterFactor))

/-- `GetNextDelay(const Error&)`. -/
def getNextDelay (p : RetryPolicy) (e : Error) (dis : Draw) : ℤ :=
  match e.retryAfter with
  | some delay => delay
  | none => p.calculateBackoff dis

theorem shouldRetry_iff (p : RetryPolicy) (e : Error) :
    p.shouldRetry e = true ↔ isRetryable e.code = true ∧ p.attempts < p.config.maxRetries := by
  rw [shouldRetry]
  split <;> simp [*]

/-- **A retry waits as long as the server asked for**, or for the backoff, with a jitter between its bounds. -/
theorem getNextDelay_drawn (p : RetryPolicy) (e : Error) (dis : Draw) :
    ∃ x, Drawn (1.0 - p.config.jitterFactor) (1.0 + p.config.jitterFactor) x ∧
      p.getNextDelay e dis = e.retryAfter.getD (p.backoff x) := by
  refine ⟨_, uniform_drawn dis _ _, ?_⟩
  rw [getNextDelay]
  cases e.retryAfter <;> rfl

/-- **The first backoff is the initial delay**, capped and with the jitter. -/
theorem backoff_first (config : RetryConfig) (x : Float) :
    ({ config } : RetryPolicy).backoff x =
      ((if Float.ofInt config.maxDelay < Float.ofInt config.initialDelay then Float.ofInt config.maxDelay
        else Float.ofInt config.initialDelay) * x).toInt64.toInt := rfl

/-- Recording a retry that the budget allows counts one up: the counter never wraps. -/
theorem recordAttempt_attempts {p : RetryPolicy} {e : Error} (h : p.shouldRetry e = true) :
    p.recordAttempt.attempts.toNat = p.attempts.toNat + 1 := by
  have hlt := ((shouldRetry_iff p e).mp h).2
  have hmax := p.config.maxRetries.toNat_lt
  rw [UInt32.lt_iff_toNat_lt] at hlt
  rw [recordAttempt, UInt32.toNat_add, UInt32.toNat_one, Nat.mod_eq_of_lt (by omega)]

end RetryPolicy

/-- `ResultSink`. -/
structure ResultSink where
  valid : Bool := true
  delivered : Bool := false

/-- What a call does. -/
inductive Act (ρ : Type) where
  /-- `CallApiWithRetry` is entered. -/
  | attempt
  /-- The attempt ends: no address, or what its sink hands over. -/
  | ended (result : Except Error ρ)
  /-- `loop_.Schedule`. -/
  | schedule (delay : ℤ)
  /-- The user's callback. -/
  | callback (result : Except Error ρ)

/-- One call of a client for a result in `ρ`.  `sinks` are those of its attempts, oldest first, and `timers`
the scheduled callbacks that have not run.  `arms` are the delays for which `Schedule` of the event loop will run its
callback; for the others it throws, or the timer never expires. -/
structure Call (ρ : Type) where
  policy : RetryPolicy
  arms : ℤ → Bool := fun delay => decide (0 < delay)
  sinks : List ResultSink := []
  timers : ℕ := 0
  journal : List (Act ρ) := []

namespace Call

variable {ρ : Type}

/-- The call does something. -/
def record (a : Act ρ) (c : Call ρ) : Call ρ := { c with journal := c.journal ++ [a] }

@[simp] theorem record_journal (a : Act ρ) (c : Call ρ) : (c.record a).journal = c.journal ++ [a] := rfl
@[simp] theorem record_policy (a : Act ρ) (c : Call ρ) : (c.record a).policy = c.policy := rfl
@[simp] theorem record_timers (a : Act ρ) (c : Call ρ) : (c.record a).timers = c.timers := rfl
@[simp] theorem record_arms (a : Act ρ) (c : Call ρ) : (c.record a).arms = c.arms := rfl
@[simp] theorem record_sinks (a : Act ρ) (c : Call ρ) : (c.record a).sinks = c.sinks := rfl

/-- The delay is computed first, then the attempt is recorded, then the timer is set. -/
def retry (e : Error) (dis : Draw) (c : Call ρ) : Call ρ :=
  let delay := c.policy.getNextDelay e dis
  let timers := if c.arms delay then c.timers + 1 else c.timers
  { c with policy := c.policy.recordAttempt, timers := timers }.record (.schedule delay)

/-- What both paths do with the result of an attempt. -/
def finish (result : Except Error ρ) (dis : Draw) (c : Call ρ) : Call ρ :=
  let c := c.record (.ended result)
  match result with
  | .error e => if c.policy.shouldRetry e then c.retry e dis else c.record (.callback (.error e))
  | .ok v => c.record (.callback (.ok v))

/-- The error of a hostname without an address. -/
def dnsError : Error :=
  { code := .dnsResolutionFailed, message := "Failed to resolve " ++ "hist.databento.com" }

/-- `CallApiWithRetry`, with whether `ResolveHostname` gives an address.  With one, the sink of a new pipeline
waits for the result. -/
def callApiWithRetry (addr : Bool) (dis : Draw) (c : Call ρ) : Call ρ :=
  let c := c.record .attempt
  if addr then { c with sinks := c.sinks ++ [{}] } else c.finish (.error dnsError) dis

/-- `OnResult` and `OnError` of the `k`-th sink. -/
def deliver (k : ℕ) (result : Except Error ρ) (dis : Draw) (c : Call ρ) : Call ρ :=
  match c.sinks[k]? with
  | none => c
  | some sink =>
    if !sink.valid || sink.delivered then c
    else { c with sinks := c.sinks.set k { sink with delivered := true } }.finish result dis

/-- `Invalidate` of the `k`-th sink. -/
def invalidate (k : ℕ) (c : Call ρ) : Call ρ :=
  { c with sinks := c.sinks.modify k fun sink => { sink with valid := false } }

/-- A timer of the call expires. -/
def timer (addr : Bool) (dis : Draw) (c : Call ρ) : Call ρ :=
  if c.timers = 0 then c else { c with timers := c.timers - 1 }.callApiWithRetry addr dis

end Call

/-- What happens to a call: a timer expires, or the chain of the `k`-th pipeline signals its sink. -/
inductive Happening (ρ : Type) where
  | timer (addr : Bool)
  | onResult (k : ℕ) (v : ρ)
  | onError (k : ℕ) (e : Error)
  | onComplete (k : ℕ)
  | invalidate (k : ℕ)

namespace Call

variable {ρ : Type}

/-- Something happens to the call; `dis` is what the jitter would be if a delay is computed. -/
def step (c : Call ρ) : Happening ρ × Draw → Call ρ
  | (.timer addr, dis) => c.timer addr dis
  | (.onResult k v, dis) => c.deliver k (.ok v) dis
  | (.onError k e, dis) => c.deliver k (.error e) dis
  | (.onComplete _, _) => c
  | (.invalidate k, _) => c.invalidate k

/-- `CallApi` on an event loop: a policy without attempts, and the first attempt. -/
def callApi (config : RetryConfig) (arms : ℤ → Bool) (addr : Bool) (dis : Draw) : Call ρ :=
  ({ policy := { config }, arms } : Call ρ).callApiWithRetry addr dis

end Call

end DbnPipe.Api
