import DbnPipe.Api.RetryPolicy
import DbnPipe.Http.HttpClient
import DbnPipe.Stream.EpollEventLoop

/-!
# From `Retry-After` to a timer

A server names the seconds after which to ask again.  `ProcessHeader` reads them, the error carries them,
`GetNextDelay` takes them over, and `EpollEventLoop::Schedule` splits them for `timerfd_settime`.

* `Timespec`, `timerSpec` — **the split of a delay**, as `/` and `%` of signed numbers do it;
* `TimerfdSettime`, `TimerfdSettime.Linux` — what Linux does with it: **zero disarms**, a negative field is refused;
* `scheduleAfter` — `Schedule`, with the delay that `EpollEventLoop.schedule` leaves out;
* `makeHttpError_retryAfter` — the way of the header to the error;
* `retryAfter_armed_iff` — a retry is armed **exactly for a positive number of seconds**.
-/

namespace DbnPipe.Api

open DbnPipe.Http
open DbnPipe.Epoll

/-- `it_value` of an `itimerspec`. -/
structure Timespec where
  tvSec : ℤ
  tvNsec : ℤ
deriving DecidableEq, Repr

/-- The timer specification of `Schedule`, for a delay in milliseconds. -/
def timerSpec (delay : ℤ) : Timespec := { tvSec := delay.tdiv 1000, tvNsec := delay.tmod 1000 * 1000000 }

/-- The kernel takes the specification. -/
def Timespec.Valid (ts : Timespec) : Prop := 0 ≤ ts.tvNsec ∧ ts.tvNsec < 10 ^ 9 ∧ 0 ≤ ts.tvSec

instance (ts : Timespec) : Decidable ts.Valid := inferInstanceAs (Decidable (_ ∧ _))

/-- A timer of this specification expires. -/
def Timespec.NonZero (ts : Timespec) : Prop := ¬(ts.tvSec = 0 ∧ ts.tvNsec = 0)

instance (ts : Timespec) : Decidable ts.NonZero := inferInstanceAs (Decidable (¬_))

/-- `timerfd_settime`: it fails, or leaves the timer armed or disarmed. -/
abbrev TimerfdSettime : Type := Timespec → Option Bool

/-- **What is assumed of it**: what is valid and not zero arms the timer, zero disarms it, and a negative field is
`EINVAL`. -/
structure TimerfdSettime.Linux (settime : TimerfdSettime) : Prop where
  arms : ∀ ts : Timespec, ts.Valid → ts.NonZero → settime ts = some true
  zero : settime ⟨0, 0⟩ = some false
  negative : ∀ ts : Timespec, ts.tvSec < 0 ∨ ts.tvNsec < 0 → settime ts = none

/-- One that looks at the range of the nanoseconds too. -/
def checkedSettime : TimerfdSettime := fun ts => if ts.Valid then some (decide ts.NonZero) else none

theorem checkedSettime_linux : TimerfdSettime.Linux checkedSettime where
  arms ts hvalid hnonZero := by rw [checkedSettime, if_pos hvalid, decide_eq_true hnonZero]
  zero := rfl
  negative ts hneg := by
    refine if_neg fun hvalid => ?_
    obtain ⟨h1, -, h2⟩ := hvalid
    omega

section Schedule

variable (settime : TimerfdSettime)

/-- `Schedule`, with the descriptor of the new timer: it throws, or registers the timer; and whether that is armed. -/
def scheduleAfter (delay : ℤ) (fd : ℕ) (callback : Bool) (s : EpollEventLoop) : Option (EpollEventLoop × Bool) :=
  (settime (timerSpec delay)).map fun armed => (s.schedule fd callback, armed)

/-- `Schedule` does not throw, and its callback will run. -/
def Arms (delay : ℤ) : Prop :=
  (timerSpec delay).Valid ∧ (timerSpec delay).NonZero ∧
    ∀ fd callback s, scheduleAfter settime delay fd callback s = some (s.schedule fd callback, true)

end Schedule

/-- The split of a delay is valid for all but negative ones. -/
theorem timerSpec_valid (delay : ℤ) : (timerSpec delay).Valid ↔ 0 ≤ delay := by
  have hsum := Int.mul_tdiv_add_tmod delay 1000
  have hupper := Int.tmod_lt_of_pos delay (by decide : (0 : ℤ) < 1000)
  rw [Timespec.Valid, timerSpec]
  constructor
  · rintro ⟨hnsec, -, hsec⟩
    simp only at hnsec hsec
    omega
  · intro h
    have hnsec := Int.tmod_nonneg 1000 h
    have hsec := Int.tdiv_nonneg h (by decide : (0 : ℤ) ≤ 1000)
    refine ⟨?_, ?_, hsec⟩
    · show 0 ≤ delay.tmod 1000 * 1000000
      omega
    · show delay.tmod 1000 * 1000000 < 10 ^ 9
      omega

/-- It is zero for the delay zero only. -/
theorem timerSpec_nonZero (delay : ℤ) : (timerSpec delay).NonZero ↔ delay ≠ 0 := by
  have hsum := Int.mul_tdiv_add_tmod delay 1000
  rw [Timespec.NonZero, timerSpec, ne_eq, not_iff_not]
  constructor
  · rintro ⟨hsec, hnsec⟩
    simp only at hsec hnsec
    omega
  · intro h
    subst h
    exact ⟨rfl, rfl⟩

section Armed

variable {settime : TimerfdSettime} (hlinux : settime.Linux)
include hlinux

/-- **A timer is armed exactly for a positive delay.** -/
theorem arms_iff (delay : ℤ) : Arms settime delay ↔ 0 < delay := by
  have hvalid := timerSpec_valid delay
  have hnonZero := timerSpec_nonZero delay
  constructor
  · rintro ⟨h1, h2, -⟩
    have h1' := hvalid.mp h1
    have h2' := hnonZero.mp h2
    omega
  · intro h
    have h1 := hvalid.mpr (by omega)
    have h2 := hnonZero.mpr (by omega)
    refine ⟨h1, h2, fun fd callback s => ?_⟩
    rw [scheduleAfter, hlinux.arms _ h1 h2]
    rfl

/-- **A delay of zero leaves the timer disarmed**: the callback is registered, and nothing will call it. -/
theorem scheduleAfter_zero (fd : ℕ) (callback : Bool) (s : EpollEventLoop) :
    scheduleAfter settime 0 fd callback s = some (s.schedule fd callback, false) := by
  rw [scheduleAfter, show timerSpec 0 = ⟨0, 0⟩ from rfl, hlinux.zero]
  rfl

/-- A negative delay throws. -/
theorem scheduleAfter_neg {delay : ℤ} (h : delay < 0) (fd : ℕ) (callback : Bool) (s : EpollEventLoop) :
    scheduleAfter settime delay fd callback s = none := by
  have hsum := Int.mul_tdiv_add_tmod delay 1000
  rw [scheduleAfter, hlinux.negative _ ?_]
  · rfl
  · show delay.tdiv 1000 < 0 ∨ delay.tmod 1000 * 1000000 < 0
    omega

end Armed

/-! ### The way of the header -/

section header

variable {L : Llhttp} {ρ : Type}

/-- The error of a response carries what the header said. -/
theorem makeHttpError_retryAfter {h h' : HttpClient L} {seconds : ℤ} (hfield : h.currentHeaderField = retryAfterName)
    (hvalue : stoi h.currentHeaderValue = some seconds) (hkept : h'.retryAfter = (processHeader h).retryAfter)
    (msg : String) : (makeHttpError h' msg).retryAfter = some (1000 * seconds) := by
  rw [makeHttpError, hkept, processHeader]
  simp only [hfield, if_true, hvalue]

/-- A retry waits as long as the error says. -/
theorem finish_journal {e : Error} {delay : ℤ} (hafter : e.retryAfter = some delay) (dis : Draw) {c : Call ρ}
    (hretry : c.policy.shouldRetry e = true) :
    (c.finish (.error e) dis).journal = c.journal ++ [.ended (.error e), .schedule delay] := by
  have hdelay : c.policy.getNextDelay e dis = delay := by rw [RetryPolicy.getNextDelay, hafter]
  simp only [Call.finish, Call.record_policy, hretry, if_true, Call.retry, hdelay, Call.record_journal,
    List.append_assoc, List.cons_append, List.nil_append]

/-- The retry of an error that is retried is scheduled, on a timer that expires. -/
def RetryArmed (settime : TimerfdSettime) (e : Error) (dis : Draw) (c : Call ρ) : Prop :=
  ∃ delay, (c.finish (.error e) dis).journal = c.journal ++ [.ended (.error e), .schedule delay] ∧
    Arms settime delay

/-- **A delay arms its timer exactly if it is positive, and so does an accepted `Retry-After`.**  `h` is the client
at `ProcessHeader`, and `h'` the one that makes the error, with no other such header between them. -/
theorem retryAfter_armed_iff {settime : TimerfdSettime} (hlinux : settime.Linux) :
    (∀ delay : ℤ, 0 ≤ delay → (Arms settime delay ↔ delay ≠ 0)) ∧
      ∀ (h h' : HttpClient L) (seconds : ℤ) (msg : String) (dis : Draw) (c : Call ρ),
        h.currentHeaderField = retryAfterName → stoi h.currentHeaderValue = some seconds →
        h'.retryAfter = (processHeader h).retryAfter → c.policy.shouldRetry (makeHttpError h' msg) = true →
        (RetryArmed settime (makeHttpError h' msg) dis c ↔ 0 < seconds) := by
  constructor
  · intro delay hdelay
    rw [arms_iff hlinux]
    omega
  · intro h h' seconds msg dis c hfield hvalue hkept hretry
    have hjournal := finish_journal (makeHttpError_retryAfter hfield hvalue hkept msg) dis hretry
    constructor
    · rintro ⟨delay, hschedule, harms⟩
      rw [hjournal] at hschedule
      simp only [List.append_cancel_left_eq, List.cons.injEq, Act.schedule.injEq, true_and, and_true] at hschedule
      rw [arms_iff hlinux] at harms
      omega
    · intro hpos
      exact ⟨1000 * seconds, hjournal, (arms_iff hlinux _).mpr (by omega)⟩

end header

/-- A response `429`, at the end of its header `Retry-After`. -/
def limited (value : List Byte) : HttpClient (canned 429 []) where
  statusCode := 429
  headerState := .value
  currentHeaderField := retryAfterName
  currentHeaderValue := value

/-- After thirty seconds the request is sent again. -/
theorem retryArmed_thirty :
    RetryArmed (ρ := Unit) checkedSettime (makeHttpError (processHeader (limited [51, 48])) "HTTP 429")
      (fun low _ => low) { policy := {} } :=
  ((retryAfter_armed_iff checkedSettime_linux).2 (limited [51, 48]) _ 30 "HTTP 429" (fun low _ => low) { policy := {} }
    rfl (by decide) rfl (by decide)).mpr (by decide)

/-- **After no seconds it never is**: `Retry-After: 0` is accepted, and disarms the timer; a negative one throws. -/
theorem not_retryArmed_zero :
    stoi [48] = some 0 ∧ stoi [45, 53] = some (-5) ∧
      ¬ RetryArmed (ρ := Unit) checkedSettime (makeHttpError (processHeader (limited [48])) "HTTP 429")
        (fun low _ => low) { policy := {} } ∧
      scheduleAfter checkedSettime 0 7 true {} = some (({} : EpollEventLoop).schedule 7 true, false) ∧
      scheduleAfter checkedSettime (-5000) 7 true {} = none := by
  refine ⟨by decide, by decide, ?_, scheduleAfter_zero checkedSettime_linux 7 true {},
    scheduleAfter_neg checkedSettime_linux (by decide) 7 true {}⟩
  rintro ⟨delay, hschedule, harms⟩
  have hafter : (makeHttpError (processHeader (limited [48])) "HTTP 429").retryAfter = some 0 := rfl
  rw [finish_journal hafter _ (by decide)] at hschedule
  simp only [List.append_cancel_left_eq, List.cons.injEq, Act.schedule.injEq, true_and, and_true] at hschedule
  rw [arms_iff checkedSettime_linux] at harms
  omega

end DbnPipe.Api
