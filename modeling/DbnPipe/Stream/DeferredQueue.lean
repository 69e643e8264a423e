import DbnPipe.Library.Runs
import Mathlib.Logic.Function.Basic

/-!
# Deferred callbacks and the wake descriptor

`Defer`, `Wake` and `Poll` of `lib/stream/epoll_event_loop.cpp` as **interleaved steps of many threads**: what
`Defer` does takes five steps, what `Poll` does with the queue takes three, twice.

* `Callback` — a `std::function`, which may be empty;
* `Pc` — where a thread is in `Defer`, or that it holds the mutex for the timers;
* `Phase` — where the loop's thread is in `Poll`;
* `next` — **a step**, where it can be taken: one thread does one thing;
* `Moves` — what a step can do, as a relation.

The mutex is held from one step to another, and the wake descriptor is readable or not.  The loop's own thread calls
`Defer` from callbacks or between polls.
-/

namespace DbnPipe.Deferred

/-- A thread. -/
abbrev ThreadId := ℕ

/-- A deferred function; an empty one is not called. -/
structure Callback where
  id : ℕ
  callable : Bool := true
deriving DecidableEq, Repr

/-- Where a thread is: outside, or in `Defer` before the next step named, or holding the mutex for `timers_`. -/
inductive Pc where
  | outside
  | lock (cb : Callback)
  | push (cb : Callback)
  | unlock
  | check
  | wake
  | timers
deriving DecidableEq, Repr

/-- The two calls of `ProcessDeferredCallbacks` in `Poll`. -/
inductive Pass where
  | first
  | second
deriving DecidableEq, Repr

/-- Where the loop's thread is in `Poll`; `waiting` is before and in `epoll_wait`.  Of an event it is kept whether it
is that of the wake descriptor. -/
inductive Phase where
  | idle
  | storing
  | locking (p : Pass)
  | swapping (p : Pass)
  | unlocking (p : Pass)
  | running (p : Pass)
  | waiting
  | dispatching (events : List Bool)
deriving DecidableEq, Repr

/-- The members, the local `callbacks` of `ProcessDeferredCallbacks`, and who is where.  `called` is set while a
callback runs; `queued` and `ran` record all callbacks that were pushed and that were called. -/
structure State where
  pcs : ThreadId → Pc := fun _ => .outside
  phase : Phase := .idle
  called : Bool := false
  loopThreadId : Option ThreadId := none
  deferredMutex : Option ThreadId := none
  deferredCallbacks : List Callback := []
  callbacks : List Callback := []
  readable : Bool := false
  queued : List Callback := []
  ran : List Callback := []

/-- The steps. -/
inductive Label where
  | defer (t : ThreadId) (cb : Callback)
  | lock (t : ThreadId)
  | push (t : ThreadId)
  | unlock (t : ThreadId)
  | check (t : ThreadId)
  | wake (t : ThreadId)
  | notify
  | lockTimers (t : ThreadId)
  | unlockTimers (t : ThreadId)
  | poll
  | store
  | lockQueue
  | swap
  | unlockQueue
  | call
  | ret
  | finish
  | interrupt
  | ready (events : List Bool)
  | event
  | finishEvents
deriving DecidableEq, Repr

namespace State

/-- A thread goes on to the given place. -/
def goto (s : State) (t : ThreadId) (pc : Pc) : State := { s with pcs := Function.update s.pcs t pc }

theorem goto_pcs (s : State) (t u : ThreadId) (pc : Pc) :
    (s.goto t pc).pcs u = if u = t then pc else s.pcs u := Function.update_apply _ _ _ _

variable (loop : ThreadId)

/-- The thread runs code of its own: the loop's thread does so between polls and in callbacks. -/
def MayCall (t : ThreadId) (s : State) : Prop :=
  s.pcs t = .outside ∧ (t = loop → s.phase = .idle ∨ s.called = true)

instance (t : ThreadId) (s : State) : Decidable (MayCall loop t s) := inferInstanceAs (Decidable (_ ∧ _))

/-- The loop's thread is in the code of `Poll` itself. -/
def InPoll (s : State) : Prop := s.pcs loop = .outside ∧ s.called = false

instance (s : State) : Decidable (InPoll loop s) := inferInstanceAs (Decidable (_ ∧ _))

/-- What comes after a pass. -/
def afterPass : Pass → Phase
  | .first => .waiting
  | .second => .idle

/-- A step of one thread, where it can be taken. -/
def next (s : State) : Label → Option State
  | .defer t cb => if MayCall loop t s then some (s.goto t (.lock cb)) else none
  | .lock t =>
    match s.pcs t, s.deferredMutex with
    | .lock cb, none => some { s.goto t (.push cb) with deferredMutex := some t }
    | _, _ => none
  | .push t =>
    match s.pcs t with
    | .push cb =>
      some { s.goto t .unlock with
        deferredCallbacks := s.deferredCallbacks ++ [cb]
        queued := s.queued ++ [cb] }
    | _ => none
  | .unlock t => if s.pcs t = .unlock then some { s.goto t .check with deferredMutex := none } else none
  | .check t =>
    if s.pcs t = .check then some (s.goto t (if s.loopThreadId = some t then .outside else .wake)) else none
  | .wake t => if s.pcs t = .wake then some { s.goto t .outside with readable := true } else none
  | .notify => some { s with readable := true }
  | .lockTimers t =>
    if MayCall loop t s ∧ s.deferredMutex = none then some { s.goto t .timers with deferredMutex := some t } else none
  | .unlockTimers t => if s.pcs t = .timers then some { s.goto t .outside with deferredMutex := none } else none
  | .poll => if s.phase = .idle ∧ InPoll loop s then some { s with phase := .storing } else none
  | .store =>
    if s.phase = .storing then some { s with loopThreadId := some loop, phase := .locking .first } else none
  | .lockQueue =>
    match s.phase, s.deferredMutex with
    | .locking p, none => some { s with deferredMutex := some loop, phase := .swapping p }
    | _, _ => none
  | .swap =>
    match s.phase with
    | .swapping p =>
      some { s with callbacks := s.deferredCallbacks, deferredCallbacks := s.callbacks, phase := .unlocking p }
    | _ => none
  | .unlockQueue =>
    match s.phase with
    | .unlocking p => some { s with deferredMutex := none, phase := .running p }
    | _ => none
  | .call =>
    match s.phase, s.callbacks with
    | .running _, cb :: rest =>
      if InPoll loop s then
        some { s with
          callbacks := rest
          called := cb.callable
          ran := if cb.callable then s.ran ++ [cb] else s.ran }
      else none
    | _, _ => none
  | .ret => if s.called = true ∧ s.pcs loop = .outside then some { s with called := false } else none
  | .finish =>
    match s.phase, s.callbacks with
    | .running p, [] => if InPoll loop s then some { s with phase := afterPass p } else none
    | _, _ => none
  | .interrupt => if s.phase = .waiting then some { s with phase := .idle } else none
  | .ready events =>
    -- the wake descriptor is watched level-triggered: it is among the events only while it is readable
    if s.phase = .waiting ∧ (true ∈ events → s.readable = true) then some { s with phase := .dispatching events }
    else none
  | .event =>
    match s.phase with
    | .dispatching (woken :: events) =>
      if InPoll loop s then
        some { s with
          readable := if woken then false else s.readable
          called := !woken
          phase := .dispatching events }
      else none
    | _ => none
  | .finishEvents =>
    if s.phase = .dispatching [] ∧ InPoll loop s then some { s with phase := .locking .second } else none

/-- A step; one that cannot be taken is not. -/
def step (s : State) (a : Label) : State := (s.next loop a).getD s

/-! ### What a step can do -/

/-- **What a step can do.** -/
inductive Moves (s : State) : Label → State → Prop where
  | defer {t cb} : MayCall loop t s → Moves s (.defer t cb) (s.goto t (.lock cb))
  | lock {t cb} : s.pcs t = .lock cb → s.deferredMutex = none →
      Moves s (.lock t) { s.goto t (.push cb) with deferredMutex := some t }
  | push {t cb} : s.pcs t = .push cb →
      Moves s (.push t) { s.goto t .unlock with
        deferredCallbacks := s.deferredCallbacks ++ [cb]
        queued := s.queued ++ [cb] }
  | unlock {t} : s.pcs t = .unlock → Moves s (.unlock t) { s.goto t .check with deferredMutex := none }
  | check {t} : s.pcs t = .check →
      Moves s (.check t) (s.goto t (if s.loopThreadId = some t then .outside else .wake))
  | wake {t} : s.pcs t = .wake → Moves s (.wake t) { s.goto t .outside with readable := true }
  | notify : Moves s .notify { s with readable := true }
  | lockTimers {t} : MayCall loop t s → s.deferredMutex = none →
      Moves s (.lockTimers t) { s.goto t .timers with deferredMutex := some t }
  | unlockTimers {t} : s.pcs t = .timers →
      Moves s (.unlockTimers t) { s.goto t .outside with deferredMutex := none }
  | poll : s.phase = .idle → InPoll loop s → Moves s .poll { s with phase := .storing }
  | store : s.phase = .storing → Moves s .store { s with loopThreadId := some loop, phase := .locking .first }
  | lockQueue {p} : s.phase = .locking p → s.deferredMutex = none →
      Moves s .lockQueue { s with deferredMutex := some loop, phase := .swapping p }
  | swap {p} : s.phase = .swapping p →
      Moves s .swap { s with
        callbacks := s.deferredCallbacks
        deferredCallbacks := s.callbacks
        phase := .unlocking p }
  | unlockQueue {p} : s.phase = .unlocking p →
      Moves s .unlockQueue { s with deferredMutex := none, phase := .running p }
  | call {p cb rest} : s.phase = .running p → s.callbacks = cb :: rest → InPoll loop s →
      Moves s .call { s with
        callbacks := rest
        called := cb.callable
        ran := if cb.callable then s.ran ++ [cb] else s.ran }
  | ret : s.called = true → s.pcs loop = .outside → Moves s .ret { s with called := false }
  | finish {p} : s.phase = .running p → s.callbacks = [] → InPoll loop s →
      Moves s .finish { s with phase := afterPass p }
  | interrupt : s.phase = .waiting → Moves s .interrupt { s with phase := .idle }
  | ready {events} : s.phase = .waiting → (true ∈ events → s.readable = true) →
      Moves s (.ready events) { s with phase := .dispatching events }
  | event {woken events} : s.phase = .dispatching (woken :: events) → InPoll loop s →
      Moves s .event { s with
        readable := if woken then false else s.readable
        called := !woken
        phase := .dispatching events }
  | finishEvents : s.phase = .dispatching [] → InPoll loop s →
      Moves s .finishEvents { s with phase := .locking .second }

theorem moves_of_next {s s' : State} {a : Label} (h : s.next loop a = some s') : Moves loop s a s' := by
  cases a with
  | defer t cb =>
    obtain ⟨hmay, ⟨⟩⟩ := Option.ite_none_right_eq_some.mp h
    exact .defer hmay
  | lock t =>
    rw [next] at h
    split at h
    · obtain ⟨⟩ := h
      exact .lock ‹_› ‹_›
    · exact absurd h (Option.some_ne_none _).symm
  | push t =>
    rw [next] at h
    split at h
    · obtain ⟨⟩ := h
      exact .push ‹_›
    · exact absurd h (Option.some_ne_none _).symm
  | unlock t =>
    obtain ⟨hpc, ⟨⟩⟩ := Option.ite_none_right_eq_some.mp h
    exact .unlock hpc
  | check t =>
    obtain ⟨hpc, ⟨⟩⟩ := Option.ite_none_right_eq_some.mp h
    exact .check hpc
  | wake t =>
    obtain ⟨hpc, ⟨⟩⟩ := Option.ite_none_right_eq_some.mp h
    exact .wake hpc
  | notify =>
    obtain ⟨⟩ := h
    exact .notify
  | lockTimers t =>
    obtain ⟨⟨hmay, hfree⟩, ⟨⟩⟩ := Option.ite_none_right_eq_some.mp h
    exact .lockTimers hmay hfree
  | unlockTimers t =>
    obtain ⟨hpc, ⟨⟩⟩ := Option.ite_none_right_eq_some.mp h
    exact .unlockTimers hpc
  | poll =>
    obtain ⟨⟨hphase, hin⟩, ⟨⟩⟩ := Option.ite_none_right_eq_some.mp h
    exact .poll hphase hin
  | store =>
    obtain ⟨hphase, ⟨⟩⟩ := Option.ite_none_right_eq_some.mp h
    exact .store hphase
  | lockQueue =>
    rw [next] at h
    split at h
    · obtain ⟨⟩ := h
      exact .lockQueue ‹_› ‹_›
    · exact absurd h (Option.some_ne_none _).symm
  | swap =>
    rw [next] at h
    split at h
    · obtain ⟨⟩ := h
      exact .swap ‹_›
    · exact absurd h (Option.some_ne_none _).symm
  | unlockQueue =>
    rw [next] at h
    split at h
    · obtain ⟨⟩ := h
      exact .unlockQueue ‹_›
    · exact absurd h (Option.some_ne_none _).symm
  | call =>
    rw [next] at h
    split at h
    · obtain ⟨hin, ⟨⟩⟩ := Option.ite_none_right_eq_some.mp h
      exact .call ‹_› ‹_› hin
    · exact absurd h (Option.some_ne_none _).symm
  | ret =>
    obtain ⟨⟨hcalled, hpc⟩, ⟨⟩⟩ := Option.ite_none_right_eq_some.mp h
    exact .ret hcalled hpc
  | finish =>
    rw [next] at h
    split at h
    · obtain ⟨hin, ⟨⟩⟩ := Option.ite_none_right_eq_some.mp h
      exact .finish ‹_› ‹_› hin
    · exact absurd h (Option.some_ne_none _).symm
  | interrupt =>
    obtain ⟨hphase, ⟨⟩⟩ := Option.ite_none_right_eq_some.mp h
    exact .interrupt hphase
  | ready events =>
    obtain ⟨⟨hphase, hready⟩, ⟨⟩⟩ := Option.ite_none_right_eq_some.mp h
    exact .ready hphase hready
  | event =>
    rw [next] at h
    split at h
    · obtain ⟨hin, ⟨⟩⟩ := Option.ite_none_right_eq_some.mp h
      exact .event ‹_› hin
    · exact absurd h (Option.some_ne_none _).symm
  | finishEvents =>
    obtain ⟨⟨hphase, hin⟩, ⟨⟩⟩ := Option.ite_none_right_eq_some.mp h
    exact .finishEvents hphase hin

/-- A step keeps what its moves keep. -/
theorem step_preserves {P : State → Prop} {s : State} {a : Label} (hs : P s) (h : ∀ s', Moves loop s a s' → P s') :
    P (s.step loop a) := by
  rw [step]
  cases hnext : s.next loop a with
  | none => exact hs
  | some s' => exact h s' (moves_of_next loop hnext)

end State

end DbnPipe.Deferred
