import DbnPipe.Library.Runs
import Mathlib.Data.Int.Notation
import Mathlib.Data.List.Basic

/-!
# Timers

`Timer` of `lib/stream/timer.hpp` over `IEventLoop::Schedule`: **ticks that cannot be taken back** and one flag that
tells whether a tick counts.

* `Timer` — the members; `Tick` — a callback given to `Schedule`;
* `start`, `stop`, `scheduleNext`, `fire`, `finish` — `Fire` is cut where the user's callback runs, so that the
  callback may call `Start` and `Stop`;
* `Prescription` — what a `Start` asks for: **not before, and how far apart**;
* `Conforms`, `Follows` — a call of the user's callback is as the `Start` in force prescribes, and its next tick is
  the only one;
* `Careful` — no `Start` while a tick is outstanding;
* `follows_of_careful` — every run that is careful follows its last `Start`.

Time is in milliseconds.  The loop fires any outstanding tick that is due, in any order.
-/

namespace DbnPipe.Timers

/-- A callback given to `Schedule`; `start` records the `Start` that it stems from. -/
structure Tick where
  due : ℕ
  start : ℕ
deriving DecidableEq, Repr

/-- What the `Start` in force asks for: its number, its interval, and when the next call may be at the earliest. -/
structure Prescription where
  start : ℕ
  interval : ℤ
  notBefore : ℕ
deriving DecidableEq, Repr

/-- A call of the user's callback, with what was in force. -/
structure UserCall where
  time : ℕ
  tick : Tick
  inForce : Option Prescription
deriving DecidableEq, Repr

/-- `Timer`; of `callback_` only whether it is set. -/
structure Timer where
  callback : Bool := false
  intervalMs : ℤ := 0
  armed : Bool := false
deriving DecidableEq, Repr

/-- The timer and its loop; `firing` while the user's callback runs.  `starts`, `inForce` and `calls` are the record
of what was asked for and what was called. -/
structure State extends Timer where
  now : ℕ := 0
  pending : List Tick := []
  firing : Bool := false
  starts : ℕ := 0
  inForce : Option Prescription := none
  calls : List UserCall := []
deriving DecidableEq, Repr

/-- What happens: calls of the user, time, the loop. -/
inductive Step where
  | onTimer
  | start (delayMs : ℕ) (intervalMs : ℤ)
  | stop
  | advance (ms : ℕ)
  | fire (i : ℕ)
  | finish
deriving DecidableEq, Repr

/-! ### What is prescribed -/

/-- After a call: the next one is an interval later, if there is an interval. -/
def Prescription.next (p : Prescription) (now : ℕ) : Option Prescription :=
  if 0 < p.interval then some { p with notBefore := now + p.interval.toNat } else none

theorem Prescription.next_eq {p : Prescription} {now : ℕ} :
    (p.interval ≤ 0 ∧ p.next now = none) ∨
      (0 < p.interval ∧ p.next now = some { p with notBefore := now + p.interval.toNat }) := by
  rw [Prescription.next]
  split
  · exact .inr ⟨‹_›, rfl⟩
  · exact .inl ⟨Int.not_lt.mp ‹_›, rfl⟩

namespace State

/-! ### The timer -/

/-- `ScheduleNext`. -/
def scheduleNext (delayMs : ℕ) (s : State) : State :=
  { s with pending := s.pending ++ [⟨s.now + delayMs, s.starts⟩] }

/-- `Start`. -/
def start (delayMs : ℕ) (intervalMs : ℤ) (s : State) : State :=
  { s with
    intervalMs := intervalMs
    armed := true
    starts := s.starts + 1
    inForce := some ⟨s.starts + 1, intervalMs, s.now + delayMs⟩ }.scheduleNext delayMs

/-- `Stop`. -/
def stop (s : State) : State := { s with armed := false, intervalMs := 0, inForce := none }

/-- `Fire`, to the end of the user's callback. -/
def fire (tick : Tick) (s : State) : State :=
  if s.armed then
    if s.callback then
      { s with
        firing := true
        inForce := s.inForce.bind (·.next s.now)
        calls := s.calls ++ [⟨s.now, tick, s.inForce⟩] }
    else { s with firing := true, inForce := s.inForce.bind (·.next s.now) }
  else s

/-- `Fire`, after the user's callback. -/
def finish (s : State) : State :=
  let s := { s with firing := false }
  if s.armed = true ∧ 0 < s.intervalMs then s.scheduleNext s.intervalMs.toNat else { s with armed := false }

/-- A step; the loop fires one tick at a time. -/
def step (s : State) : Step → State
  | .onTimer => { s with callback := true }
  | .start delayMs intervalMs => s.start delayMs intervalMs
  | .stop => s.stop
  | .advance ms => { s with now := s.now + ms }
  | .fire i =>
    match s.pending[i]? with
    | some tick =>
      if s.firing = false ∧ tick.due ≤ s.now then fire tick { s with pending := s.pending.eraseIdx i } else s
    | none => s
  | .finish => if s.firing then s.finish else s

end State

/-- **A call as prescribed**: on a tick of the `Start` in force, and not too early. -/
def UserCall.Conforms (c : UserCall) : Prop :=
  ∃ p, c.inForce = some p ∧ c.tick.start = p.start ∧ p.notBefore ≤ c.time

namespace State

/-- The `Start` in force has its tick, which is the only one outstanding. -/
def OneTick (s : State) : Prop :=
  ∀ p, s.inForce = some p → s.armed = true ∧ ∃ tick, s.pending = [tick] ∧ tick.start = p.start ∧ p.notBefore ≤ tick.due

/-- **The timer follows its last `Start`**: all calls were as prescribed, and where something is in force and the
callback does not run, one tick is to come, not too early; where nothing is, no tick counts. -/
structure Follows (s : State) : Prop where
  calls : ∀ c ∈ s.calls, c.Conforms
  oneTick : s.firing = false → s.OneTick
  silent : s.firing = false → s.inForce = none → s.armed = false
  pending : s.pending.length ≤ 1

/-- **No `Start` while a tick is outstanding**, and none in the callback that is not stopped before its end. -/
def Careful (s : State) : Step → Prop
  | .start _ _ => s.pending = []
  | .finish => s.armed = true → s.pending = []
  | _ => True

/-! ### The invariant -/

/-- What is in force belongs to the members: the tick is outstanding. -/
def Standing (s : State) : Prop :=
  ∃ p tick, s.inForce = some p ∧ p.start = s.starts ∧ p.interval = s.intervalMs ∧ s.pending = [tick] ∧
    tick.start = p.start ∧ p.notBefore ≤ tick.due

/-- In the callback, no call of the user yet: the tick is still to be scheduled. -/
def Due (s : State) : Prop :=
  s.pending = [] ∧
    ((s.intervalMs ≤ 0 ∧ s.inForce = none) ∨
      ∃ p, s.inForce = some p ∧ 0 < s.intervalMs ∧ p.start = s.starts ∧ p.interval = s.intervalMs ∧
        p.notBefore ≤ s.now + s.intervalMs.toNat)

/-- What careful steps keep. -/
structure Inv (s : State) : Prop where
  calls : ∀ c ∈ s.calls, c.Conforms
  pending : s.pending.length ≤ 1
  disarmed : s.armed = false → s.inForce = none
  armed : s.armed = true → s.Standing ∨ (s.firing = true ∧ s.Due)

theorem inv_init : Inv {} where
  calls _ h := absurd h List.not_mem_nil
  pending := Nat.zero_le 1
  disarmed _ := rfl
  armed h := absurd h Bool.false_ne_true

theorem Inv.start {s : State} (hs : s.Inv) (hpending : s.pending = []) (delayMs : ℕ) (intervalMs : ℤ) :
    (s.start delayMs intervalMs).Inv where
  calls := hs.calls
  pending := by
    show (s.pending ++ [_]).length ≤ 1
    rw [hpending]
    exact Nat.le_refl 1
  disarmed h := absurd h.symm Bool.false_ne_true
  armed _ := by
    refine .inl ⟨_, ⟨s.now + delayMs, s.starts + 1⟩, rfl, rfl, rfl, ?_, rfl, Nat.le_refl _⟩
    show s.pending ++ [_] = _
    rw [hpending]
    rfl

theorem Inv.stop {s : State} (hs : s.Inv) : s.stop.Inv where
  calls := hs.calls
  pending := hs.pending
  disarmed _ := rfl
  armed h := absurd h Bool.false_ne_true

theorem Inv.advance {s : State} (hs : s.Inv) (ms : ℕ) : Inv { s with now := s.now + ms } where
  calls := hs.calls
  pending := hs.pending
  disarmed := hs.disarmed
  armed h := by
    refine (hs.armed h).imp_right ?_
    rintro ⟨hfiring, hpending, hdue⟩
    refine ⟨hfiring, hpending, hdue.imp_right ?_⟩
    rintro ⟨p, hp, hinterval, hstart, heq, hle⟩
    refine ⟨p, hp, hinterval, hstart, heq, ?_⟩
    show p.notBefore ≤ s.now + ms + s.intervalMs.toNat
    omega

/-- The only tick outstanding. -/
theorem Inv.pending_eq {s : State} (hs : s.Inv) {tick : Tick} {i : ℕ} (htick : s.pending[i]? = some tick) :
    s.pending = [tick] ∧ s.pending.eraseIdx i = [] := by
  obtain ⟨hi, htick⟩ := List.getElem?_eq_some_iff.mp htick
  have hlength := hs.pending
  obtain ⟨only, honly⟩ := List.length_eq_one_iff.mp (by omega : s.pending.length = 1)
  have hzero : i = 0 := by omega
  subst hzero
  simp only [honly, List.getElem_cons_zero] at htick
  rw [honly, htick]
  exact ⟨rfl, rfl⟩

/-- **The tick in force fires**: the call is as prescribed, and the next tick is still to be scheduled. -/
theorem Inv.fire {s : State} (hs : s.Inv) {tick : Tick} {i : ℕ} (hfiring : s.firing = false)
    (htick : s.pending[i]? = some tick) (hdue : tick.due ≤ s.now) :
    (fire tick { s with pending := s.pending.eraseIdx i }).Inv := by
  obtain ⟨hpending, herased⟩ := hs.pending_eq htick
  rw [herased, State.fire]
  dsimp only
  split
  · rename_i harmed
    obtain ⟨p, tick', hp, hstart, hinterval, honly, htag, hbefore⟩ : s.Standing := by
      rcases hs.armed harmed with h | h
      · exact h
      · exact absurd (hfiring.symm.trans h.1) Bool.false_ne_true
    obtain rfl : tick' = tick := List.head_eq_of_cons_eq (honly.symm.trans hpending)
    -- what is in force after the call
    have hnext : ∀ t : State, t.pending = [] → t.intervalMs = s.intervalMs → t.inForce = s.inForce.bind (·.next s.now) →
        t.starts = s.starts → t.now = s.now → t.Due := by
      intro t htpending htinterval htforce htstarts htnow
      refine ⟨htpending, ?_⟩
      rw [htforce, htinterval, hp, Option.bind_some, htstarts, htnow, ← hinterval]
      rcases @Prescription.next_eq p s.now with ⟨hle, hnone⟩ | ⟨hlt, hsome⟩
      · exact .inl ⟨hle, hnone⟩
      · exact .inr ⟨_, hsome, hlt, hstart, rfl, Nat.le_refl _⟩
    split
    · refine ⟨?_, Nat.zero_le 1, fun h => absurd (harmed.symm.trans h).symm Bool.false_ne_true, fun _ =>
        .inr ⟨rfl, hnext _ rfl rfl rfl rfl rfl⟩⟩
      intro c hc
      rcases List.mem_append.mp hc with hc | hc
      · exact hs.calls c hc
      · obtain rfl := List.mem_singleton.mp hc
        exact ⟨p, hp, htag, Nat.le_trans hbefore hdue⟩
    · exact ⟨hs.calls, Nat.zero_le 1, fun h => absurd (harmed.symm.trans h).symm Bool.false_ne_true, fun _ =>
        .inr ⟨rfl, hnext _ rfl rfl rfl rfl rfl⟩⟩
  · rename_i harmed
    exact ⟨hs.calls, Nat.zero_le 1, hs.disarmed, fun h => absurd h harmed⟩

/-- The callback ends: the next tick is scheduled, or the timer is disarmed. -/
theorem Inv.finish {s : State} (hs : s.Inv) (hcareful : s.armed = true → s.pending = []) : s.finish.Inv := by
  rw [State.finish]
  dsimp only
  split
  · rename_i h
    obtain ⟨harmed, hinterval⟩ := h
    have hpending := hcareful harmed
    obtain ⟨-, hdue⟩ : s.Due := by
      rcases hs.armed harmed with ⟨p, tick, -, -, -, htick, -⟩ | h
      · exact absurd (hpending.symm.trans htick) (List.cons_ne_nil _ _).symm
      · exact h.2
    obtain ⟨p, hp, -, hstart, heq, hbefore⟩ : ∃ p, s.inForce = some p ∧ 0 < s.intervalMs ∧ p.start = s.starts ∧
        p.interval = s.intervalMs ∧ p.notBefore ≤ s.now + s.intervalMs.toNat := by
      rcases hdue with ⟨hle, -⟩ | h
      · exact absurd hinterval (Int.not_lt.mpr hle)
      · exact h
    have hone : (s.scheduleNext s.intervalMs.toNat).pending = [⟨s.now + s.intervalMs.toNat, s.starts⟩] := by
      rw [scheduleNext, hpending]
      rfl
    exact ⟨hs.calls, by rw [scheduleNext, hpending]; exact Nat.le_refl 1,
      fun h => absurd (harmed.symm.trans h).symm Bool.false_ne_true,
      fun _ => .inl ⟨p, _, hp, hstart, heq, hone, hstart.symm, hbefore⟩⟩
  · rename_i h
    refine ⟨hs.calls, hs.pending, fun _ => ?_, fun h => absurd h Bool.false_ne_true⟩
    show s.inForce = none
    cases harmed : s.armed with
    | false => exact hs.disarmed harmed
    | true =>
      obtain ⟨-, hdue⟩ : s.Due := by
        rcases hs.armed harmed with ⟨p, tick, -, -, -, htick, -⟩ | h
        · exact absurd ((hcareful harmed).symm.trans htick) (List.cons_ne_nil _ _).symm
        · exact h.2
      rcases hdue with ⟨-, hnone⟩ | ⟨p, -, hlt, -⟩
      · exact hnone
      · exact absurd ⟨harmed, hlt⟩ h

theorem Inv.step {s : State} (hs : s.Inv) (a : Step) (hcareful : s.Careful a) : (s.step a).Inv := by
  cases a with
  | onTimer => exact ⟨hs.calls, hs.pending, hs.disarmed, hs.armed⟩
  | start delayMs intervalMs => exact hs.start hcareful delayMs intervalMs
  | stop => exact hs.stop
  | advance ms => exact hs.advance ms
  | fire i =>
    rw [State.step]
    split
    · split
      · rename_i htick h
        exact hs.fire h.1 htick h.2
      · exact hs
    · exact hs
  | finish =>
    rw [State.step]
    split
    · exact hs.finish hcareful
    · exact hs

theorem Inv.follows {s : State} (hs : s.Inv) : s.Follows where
  calls := hs.calls
  oneTick hfiring p hp := by
    cases harmed : s.armed with
    | false => exact absurd ((hs.disarmed harmed).symm.trans hp) (Option.some_ne_none p).symm
    | true =>
      rcases hs.armed harmed with ⟨p', tick, hp', -, -, htick, htag, hbefore⟩ | h
      · obtain rfl := Option.some.inj (hp.symm.trans hp')
        exact ⟨rfl, tick, htick, htag, hbefore⟩
      · exact absurd (hfiring.symm.trans h.1) Bool.false_ne_true
  silent hfiring hnone := by
    cases harmed : s.armed with
    | false => rfl
    | true =>
      rcases hs.armed harmed with ⟨p, tick, hp, -⟩ | h
      · exact absurd (hnone.symm.trans hp) (Option.some_ne_none p).symm
      · exact absurd (hfiring.symm.trans h.1) Bool.false_ne_true
  pending := hs.pending

/-- **The timer follows its last `Start`**, in every state of every run in which no `Start` comes while a tick is
outstanding. -/
theorem follows_of_careful (steps : List Step) (h : Runs.Along Careful step {} steps) :
    (Runs.run step {} steps).Follows :=
  (Runs.run_preserves (fun _ a hs hcareful => hs.step a hcareful) inv_init h).follows

/-! ### A `Start` while a tick is outstanding -/

/-- Ticks stem from a `Start` that there was. -/
def Stamped (s : State) : Prop := ∀ tick ∈ s.pending, tick.start ≤ s.starts

theorem Stamped.scheduleNext {s : State} (hs : s.Stamped) (delayMs : ℕ) : (s.scheduleNext delayMs).Stamped := by
  intro tick htick
  rcases List.mem_append.mp htick with htick | htick
  · exact hs tick htick
  · obtain rfl := List.mem_singleton.mp htick
    exact Nat.le_refl _

theorem Stamped.start {s : State} (hs : s.Stamped) (delayMs : ℕ) (intervalMs : ℤ) :
    (s.start delayMs intervalMs).Stamped := by
  have hcounted : Stamped { s with
      intervalMs := intervalMs
      armed := true
      starts := s.starts + 1
      inForce := some ⟨s.starts + 1, intervalMs, s.now + delayMs⟩ } := fun tick htick =>
    Nat.le_succ_of_le (hs tick htick)
  exact hcounted.scheduleNext delayMs

theorem stamped_init : Stamped {} := fun _ h => absurd h List.not_mem_nil

theorem stamped_step {s : State} (hs : s.Stamped) (a : Step) : (s.step a).Stamped := by
  cases a with
  | onTimer => exact hs
  | start delayMs intervalMs => exact hs.start delayMs intervalMs
  | stop => exact hs
  | advance ms => exact hs
  | fire i =>
    rw [step]
    split
    · split
      · have herased : Stamped { s with pending := s.pending.eraseIdx i } := fun tick htick =>
          hs tick (List.mem_of_mem_eraseIdx htick)
        rw [fire]
        split
        · split <;> exact herased
        · exact herased
      · exact hs
    · exact hs
  | finish =>
    rw [step]
    split
    · rw [finish]
      dsimp only
      split
      · exact Stamped.scheduleNext (s := { s with firing := false }) hs _
      · exact hs
    · exact hs

/-- **The condition is needed**: after a `Start` while a tick is outstanding, that tick calls the user, if the loop
fires it first. -/
theorem start_unsafe {steps : List Step} {tick : Tick} {i : ℕ} (htick : (Runs.run step {} steps).pending[i]? = some tick)
    (hfiring : (Runs.run step {} steps).firing = false) (hcallback : (Runs.run step {} steps).callback = true)
    (delayMs : ℕ) (intervalMs : ℤ) :
    ¬(Runs.run step {} (steps ++ [.start delayMs intervalMs, .advance tick.due, .fire i])).Follows := by
  intro hfollows
  have hstamped : (Runs.run step {} steps).Stamped :=
    @Runs.run_invariant State Step step Stamped (fun _ a hs => stamped_step hs a) {} stamped_init steps
  rw [Runs.run_append] at hfollows
  generalize Runs.run step {} steps = s at htick hfiring hcallback hstamped hfollows
  have hold : tick.start ≤ s.starts := hstamped tick (List.mem_of_getElem? htick)
  let t := (s.start delayMs intervalMs).step (.advance tick.due)
  have hstill : t.pending[i]? = some tick := by
    have hi := (List.getElem?_eq_some_iff.mp htick).1
    exact (List.getElem?_append_left hi).trans htick
  have hfire : t.step (.fire i) = fire tick { t with pending := t.pending.eraseIdx i } := by
    rw [step, hstill]
    exact if_pos ⟨hfiring, Nat.le_add_left _ _⟩
  have hcall : (⟨t.now, tick, t.inForce⟩ : UserCall) ∈ (t.step (.fire i)).calls := by
    rw [hfire, fire, if_pos (show t.armed = true from rfl), if_pos (show t.callback = true from hcallback)]
    exact List.mem_append_right _ List.mem_cons_self
  obtain ⟨p, hp, htag, -⟩ := hfollows.calls _ hcall
  obtain rfl : ⟨s.starts + 1, intervalMs, s.now + delayMs⟩ = p := Option.some.inj hp
  exact absurd (htag ▸ hold) (Nat.not_succ_le_self _)

/-- A periodic timer that ticks twice and is stopped. -/
def periodic : List Step :=
  [.onTimer, .start 100 50, .advance 100, .fire 0, .finish, .advance 60, .fire 0, .stop, .finish]

theorem follows_of_careful_periodic : (Runs.run step {} periodic).Follows :=
  follows_of_careful periodic
    ⟨trivial, rfl, trivial, trivial, fun _ => rfl, trivial, trivial, trivial, fun _ => rfl, trivial⟩

/-- **A stopped tick fires**: the timer is stopped and started anew, and the first tick calls the user 400 ms early. -/
theorem stale_tick_fires :
    ¬(Runs.run step {} [.onTimer, .start 100 0, .stop, .start 500 0, .advance 100, .fire 0]).Follows := by
  intro h
  obtain ⟨p, hp, htag, -⟩ := h.calls ⟨100, ⟨100, 1⟩, some ⟨2, 0, 500⟩⟩ (by decide)
  obtain rfl := Option.some.inj hp
  exact absurd htag (by decide)

end State

end DbnPipe.Timers
