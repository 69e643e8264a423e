import DbnPipe.Library.Runs
import Mathlib.Data.Int.Notation
import Mathlib.Data.List.Basic
import Mathlib.Logic.Function.Basic

/-!
# The asio event loop

`AsioEventHandle` of `dbwriter/asio_event_loop.hpp`: a registration with the event loop, made of **waits that end
once each**.

* `AsioEventHandleState` — the members, next to the waits that run and to the handlers of those that have ended;
* `Env` — what the callbacks do and what `poll` says, both **arbitrary**: a callback may call `Update` and destroy
  its own handle;
* `startWait`, `drain`, `handle` — `start_read_wait` and `start_write_wait`, and their handlers;
* `update`, `destroy` — the handle;
* `Armed` — a wait runs, or the handler of one is about to be called;
* `served` — in every run **what is wanted is armed**, and nothing is called behind the destructor.

What asio does is an input: it may end any wait at any time, and run the handlers in any order.
-/

namespace DbnPipe.DbWriter.Asio

/-- `wait_read` and `wait_write`. -/
inductive Direction where
  | read
  | write
deriving DecidableEq, Repr

/-- How a wait ends: its `std::error_code`. -/
inductive Ended where
  | ready
  | aborted
  | error (value : ℤ)
deriving DecidableEq, Repr

/-- `on_read` and `on_write`, and `on_error`. -/
inductive Callback where
  | ready (d : Direction)
  | error (value : ℤ)
deriving DecidableEq, Repr

/-- A call of a callback, and whether the handle was destroyed by then. -/
structure Call where
  callback : Callback
  destroyed : Bool
deriving DecidableEq, Repr

/-- `AsioEventHandleState`; the members that there are twice are functions of the direction, and of the callbacks
only whether they are set. -/
structure AsioEventHandleState where
  onReady : Direction → Bool
  onError : Bool
  want : Direction → Bool
  inCallback : Direction → Bool := fun _ => false
  waitPending : Direction → Bool := fun _ => false
  destroyed : Bool := false
  -- the waits of asio, and the handlers of those that have ended
  waits : Direction → ℕ := fun _ => 0
  handlers : List (Direction × Ended) := []
  -- a wait has ended with an error, and there was no `Update` since
  failed : Direction → Bool := fun _ => false
  calls : List Call := []

/-- What a callback may do with its handle. -/
inductive Action where
  | update (wantRead wantWrite : Bool)
  | destroy
deriving DecidableEq, Repr

/-- What the callbacks do, and what `fd_readable` and `fd_writable` say. -/
structure Env where
  behave : AsioEventHandleState → Callback → List Action
  ready : AsioEventHandleState → Direction → Bool

namespace AsioEventHandleState

/-! ### The waits -/

/-- The body of `start_read_wait` and `start_write_wait`. -/
def startWait (d : Direction) (s : AsioEventHandleState) : AsioEventHandleState :=
  if s.waitPending d || s.destroyed then s
  else
    { s with
      waitPending := Function.update s.waitPending d true
      waits := Function.update s.waits d (s.waits d + 1) }

/-- `start_read_wait`. -/
def startReadWait : AsioEventHandleState → AsioEventHandleState := startWait .read

/-- `start_write_wait`. -/
def startWriteWait : AsioEventHandleState → AsioEventHandleState := startWait .write

/-- `start_waiting`. -/
def startWaiting (s : AsioEventHandleState) : AsioEventHandleState :=
  let s := if s.want .read && !s.inCallback .read && !s.waitPending .read then s.startReadWait else s
  if s.want .write && !s.inCallback .write && !s.waitPending .write then s.startWriteWait else s

/-- `stream.cancel`: every wait ends, but not the handlers that are there already. -/
def cancel (s : AsioEventHandleState) : AsioEventHandleState :=
  { s with
    waits := fun _ => 0
    handlers := s.handlers ++ (List.replicate (s.waits .read) (.read, .aborted) ++
      List.replicate (s.waits .write) (.write, .aborted)) }

/-! ### The handle -/

/-- `want_read` and `want_write`. -/
def wants (wantRead wantWrite : Bool) : Direction → Bool
  | .read => wantRead
  | .write => wantWrite

/-- `AsioEventHandle::Update`. -/
def update (wantRead wantWrite : Bool) (s : AsioEventHandleState) : AsioEventHandleState :=
  let s := cancel { s with want := wants wantRead wantWrite }
  startWaiting { s with waitPending := fun _ => false, failed := fun _ => false }

/-- `~AsioEventHandle`. -/
def destroy (s : AsioEventHandleState) : AsioEventHandleState := cancel { s with destroyed := true }

/-- The constructor of `AsioEventHandle`. -/
def create (onReady : Direction → Bool) (onError wantRead wantWrite : Bool) : AsioEventHandleState :=
  startWaiting { onReady, onError, want := wants wantRead wantWrite }

/-- A use of the handle, if it is still there. -/
def act (s : AsioEventHandleState) : Action → AsioEventHandleState
  | .update wantRead wantWrite => if s.destroyed then s else s.update wantRead wantWrite
  | .destroy => if s.destroyed then s else s.destroy

/-! ### The handlers -/

variable (env : Env)

/-- A callback runs. -/
def call (c : Callback) (s : AsioEventHandleState) : AsioEventHandleState :=
  (env.behave s c).foldl act { s with calls := s.calls ++ [⟨c, s.destroyed⟩] }

/-- `kMaxDrainIterations`. -/
def kMaxDrainIterations : ℕ := 1024

/-- The loop of a handler. -/
def drain (d : Direction) : ℕ → AsioEventHandleState → AsioEventHandleState
  | 0, s => s
  | n + 1, s =>
    let s := if s.onReady d then s.call env (.ready d) else s
    if !s.want d || s.destroyed || !env.ready s d then s else drain d n s

/-- `in_read_callback` and `in_write_callback` are set. -/
def setInCallback (d : Direction) (value : Bool) (s : AsioEventHandleState) : AsioEventHandleState :=
  { s with inCallback := Function.update s.inCallback d value }

/-- The handler of a wait that ended without an error. -/
def handleReady (d : Direction) (s : AsioEventHandleState) : AsioEventHandleState :=
  let s := if s.want d && !s.destroyed then s.startWait d else s
  let s := (drain env d kMaxDrainIterations (s.setInCallback d true)).setInCallback d false
  if s.want d && !s.destroyed && !s.waitPending d then s.startWait d else s

/-- The handler of a wait.  Where the state itself is gone, so is the handle. -/
def handle (d : Direction) (ended : Ended) (s : AsioEventHandleState) : AsioEventHandleState :=
  if s.destroyed then s
  else
    let s := { s with waitPending := Function.update s.waitPending d false }
    match ended with
    | .ready => s.handleReady env d
    | .aborted => s
    | .error value =>
      let s := { s with failed := Function.update s.failed d true }
      if s.onError then s.call env (.error value) else s

/-! ### Runs -/

/-- What may happen: a wait ends, with an error or without; a handler runs; the handle is used from elsewhere. -/
inductive Input where
  | ends (d : Direction) (error : Option ℤ)
  | runs (n : ℕ)
  | acts (a : Action)
deriving DecidableEq, Repr

/-- The end of a wait. -/
def endWait (d : Direction) (error : Option ℤ) (s : AsioEventHandleState) : AsioEventHandleState :=
  if s.waits d = 0 then s
  else
    { s with
      waits := Function.update s.waits d (s.waits d - 1)
      handlers := s.handlers ++ [(d, error.elim .ready .error)] }

/-- One input. -/
def step (s : AsioEventHandleState) : Input → AsioEventHandleState
  | .ends d error => s.endWait d error
  | .runs n =>
    match s.handlers[n]? with
    | none => s
    | some (d, ended) => handle env d ended { s with handlers := s.handlers.eraseIdx n }
  | .acts a => s.act a

/-! ### What a wait keeps -/

/-- A wait runs, or one has ended other than by `cancel` and its handler is about to be called. -/
def Armed (d : Direction) (s : AsioEventHandleState) : Prop :=
  0 < s.waits d ∨ ∃ ended, ended ≠ .aborted ∧ (d, ended) ∈ s.handlers

/-- **What holds at every moment**, also inside a callback. -/
structure Sound (s : AsioEventHandleState) : Prop where
  pending : ∀ d, s.destroyed = false → s.waitPending d = true → s.Armed d
  silent : ∀ c ∈ s.calls, c.destroyed = false
  told : ∀ d, s.failed d = true → s.onError = true → ∃ value, ⟨.error value, false⟩ ∈ s.calls

/-- What is wanted is armed, unless its handler runs. -/
def Served (d : Direction) (s : AsioEventHandleState) : Prop :=
  s.destroyed = false → s.want d = true → s.inCallback d = false → s.Armed d ∨ s.failed d = true

section StartWait

variable (d : Direction) (s : AsioEventHandleState)

@[simp] theorem want_startWait : (s.startWait d).want = s.want := by
  rw [startWait]
  split <;> rfl

@[simp] theorem inCallback_startWait : (s.startWait d).inCallback = s.inCallback := by
  rw [startWait]
  split <;> rfl

@[simp] theorem destroyed_startWait : (s.startWait d).destroyed = s.destroyed := by
  rw [startWait]
  split <;> rfl

@[simp] theorem failed_startWait : (s.startWait d).failed = s.failed := by
  rw [startWait]
  split <;> rfl

@[simp] theorem calls_startWait : (s.startWait d).calls = s.calls := by
  rw [startWait]
  split <;> rfl

@[simp] theorem handlers_startWait : (s.startWait d).handlers = s.handlers := by
  rw [startWait]
  split <;> rfl

@[simp] theorem onReady_startWait : (s.startWait d).onReady = s.onReady := by
  rw [startWait]
  split <;> rfl

@[simp] theorem onError_startWait : (s.startWait d).onError = s.onError := by
  rw [startWait]
  split <;> rfl

end StartWait

variable {env} {s : AsioEventHandleState} {d : Direction}

theorem Armed.startWait (h : s.Armed d) (d' : Direction) : (s.startWait d').Armed d := by
  rw [AsioEventHandleState.startWait]
  split
  · exact h
  · refine h.imp (fun hwaits => ?_) id
    show 0 < Function.update s.waits d' (s.waits d' + 1) d
    by_cases hd : d = d'
    · rw [hd, Function.update_self]
      exact Nat.succ_pos _
    · rw [Function.update_of_ne hd]
      exact hwaits

/-- A wait that is started, or marked as pending already. -/
theorem armed_startWait (h : s.waitPending d = true → s.Armed d) (hlive : s.destroyed = false) :
    (s.startWait d).Armed d := by
  by_cases hpending : s.waitPending d = true
  · exact (h hpending).startWait d
  · rw [startWait, if_neg (by simp [hpending, hlive])]
    refine .inl ?_
    show 0 < Function.update s.waits d (s.waits d + 1) d
    rw [Function.update_self]
    exact Nat.succ_pos _

theorem Sound.startWait (h : s.Sound) (d : Direction) : (s.startWait d).Sound := by
  refine ⟨fun d' hlive hpending => ?_, ?_, ?_⟩
  · rw [destroyed_startWait] at hlive
    by_cases hd : d' = d
    · rw [hd]
      exact armed_startWait (h.pending d hlive) hlive
    · have hpending' : s.waitPending d' = true := by
        rw [AsioEventHandleState.startWait] at hpending
        split at hpending
        · exact hpending
        · exact (Function.update_of_ne hd _ _).symm.trans hpending
      exact (h.pending d' hlive hpending').startWait d
  · rw [calls_startWait]
    exact h.silent
  · intro d'
    rw [calls_startWait, failed_startWait, onError_startWait]
    exact h.told d'

theorem Served.startWait (h : s.Served d) (d' : Direction) : (s.startWait d').Served d := by
  intro hlive hwant hcallback
  rw [destroyed_startWait] at hlive
  rw [want_startWait] at hwant
  rw [inCallback_startWait] at hcallback
  rw [failed_startWait]
  exact (h hlive hwant hcallback).imp_left fun harmed => harmed.startWait d'

/-- Where a wait is started unless one is pending, the direction is served. -/
theorem served_restart {c : Bool} (h : s.Sound) (hc : s.want d = true → s.inCallback d = false →
    s.destroyed = false → s.waitPending d = false → c = true) : (if c = true then s.startWait d else s).Served d := by
  by_cases hstart : c = true
  · rw [if_pos hstart]
    intro hlive _ _
    rw [destroyed_startWait] at hlive
    exact .inl (armed_startWait (h.pending d hlive) hlive)
  · rw [if_neg hstart]
    intro hlive hwant hcallback
    refine .inl (h.pending d hlive ?_)
    by_contra hpending
    exact hstart (hc hwant hcallback hlive (Bool.eq_false_iff.mpr hpending))

theorem Sound.restart {c : Bool} (h : s.Sound) : (if c = true then s.startWait d else s).Sound := by
  split
  · exact h.startWait d
  · exact h

/-! ### The uses of the handle -/

theorem startWaiting_spec (h : s.Sound) : s.startWaiting.Sound ∧ ∀ d, s.startWaiting.Served d := by
  have hread := served_restart (d := .read) (c := s.want .read && !s.inCallback .read && !s.waitPending .read) h
    fun hwant hcallback _ hpending => by rw [hwant, hcallback, hpending]; rfl
  have hsound := h.restart (d := .read) (c := s.want .read && !s.inCallback .read && !s.waitPending .read)
  rw [startWaiting, startReadWait, startWriteWait]
  generalize (if (s.want .read && !s.inCallback .read && !s.waitPending .read) = true then s.startWait .read
    else s) = u at hread hsound ⊢
  refine ⟨hsound.restart, fun d => ?_⟩
  cases d with
  | read =>
    split
    · exact hread.startWait .write
    · exact hread
  | write => exact served_restart hsound fun hwant hcallback _ hpending => by rw [hwant, hcallback, hpending]; rfl

/-- What no use of the handle changes. -/
structure Frame (s t : AsioEventHandleState) : Prop where
  inCallback : t.inCallback = s.inCallback
  onReady : t.onReady = s.onReady
  calls : t.calls = s.calls

theorem Frame.trans {s t u : AsioEventHandleState} (h : Frame s t) (h' : Frame t u) : Frame s u :=
  ⟨h'.inCallback.trans h.inCallback, h'.onReady.trans h.onReady, h'.calls.trans h.calls⟩

theorem frame_startWaiting (s : AsioEventHandleState) : Frame s s.startWaiting := by
  have hone : ∀ (c : Bool) (d : Direction) (t : AsioEventHandleState),
      Frame t (if c = true then t.startWait d else t) := by
    intro c d t
    split
    · exact ⟨inCallback_startWait d t, onReady_startWait d t, calls_startWait d t⟩
    · exact ⟨rfl, rfl, rfl⟩
  exact (hone _ _ _).trans (hone _ _ _)

theorem frame_act (s : AsioEventHandleState) (a : Action) : Frame s (s.act a) := by
  cases a with
  | update wantRead wantWrite =>
    rw [act]
    split
    · exact ⟨rfl, rfl, rfl⟩
    · exact ⟨(frame_startWaiting _).inCallback, (frame_startWaiting _).onReady, (frame_startWaiting _).calls⟩
  | destroy =>
    rw [act]
    split <;> exact ⟨rfl, rfl, rfl⟩

theorem frame_acts (s : AsioEventHandleState) (actions : List Action) : Frame s (actions.foldl act s) := by
  induction actions generalizing s with
  | nil => exact ⟨rfl, rfl, rfl⟩
  | cons a actions ih => exact (frame_act s a).trans (ih (s.act a))

/-- `Sound`, and everything served. -/
def Good (s : AsioEventHandleState) : Prop := s.Sound ∧ ∀ d, s.Served d

theorem Good.act (h : s.Good) (a : Action) : (s.act a).Good := by
  cases a with
  | update wantRead wantWrite =>
    rw [AsioEventHandleState.act]
    split
    · exact h
    · refine startWaiting_spec ⟨fun _ _ hpending => absurd hpending Bool.false_ne_true, h.1.silent, ?_⟩
      intro _ hfailed
      exact absurd hfailed Bool.false_ne_true
  | destroy =>
    rw [AsioEventHandleState.act]
    split
    · exact h
    · have hgone : s.destroy.destroyed = true := rfl
      refine ⟨⟨fun d hlive => ?_, h.1.silent, h.1.told⟩, fun d hlive => ?_⟩
      · exact absurd (hgone.symm.trans hlive) Bool.true_eq_false.mp
      · exact absurd (hgone.symm.trans hlive) Bool.true_eq_false.mp

theorem Good.acts (h : s.Good) (actions : List Action) : (actions.foldl AsioEventHandleState.act s).Good := by
  induction actions generalizing s with
  | nil => exact h
  | cons a actions ih => exact ih (h.act a)

/-! ### The handlers -/

theorem Good.call (h : s.Good) (hlive : s.destroyed = false) (c : Callback) : (s.call env c).Good := by
  have hcalled : Good { s with calls := s.calls ++ [⟨c, s.destroyed⟩] } := by
    refine ⟨⟨h.1.pending, fun c' hc' => ?_, fun d hfailed herror => ?_⟩, h.2⟩
    · rcases List.mem_append.mp hc' with hold | hnew
      · exact h.1.silent c' hold
      · rw [List.mem_singleton.mp hnew]
        exact hlive
    · obtain ⟨value, hvalue⟩ := h.1.told d hfailed herror
      exact ⟨value, List.mem_append_left _ hvalue⟩
  exact hcalled.acts _

theorem frame_call (env : Env) (s : AsioEventHandleState) (c : Callback) : (s.call env c).inCallback = s.inCallback ∧
    (s.call env c).onReady = s.onReady ∧ (s.call env c).calls = s.calls ++ [⟨c, s.destroyed⟩] := by
  have hframe := frame_acts { s with calls := s.calls ++ [⟨c, s.destroyed⟩] } (env.behave s c)
  exact ⟨hframe.inCallback, hframe.onReady, hframe.calls⟩

/-- One round of the loop, up to its conditions. -/
def round (env : Env) (d : Direction) (s : AsioEventHandleState) : AsioEventHandleState :=
  if s.onReady d then s.call env (.ready d) else s

theorem drain_succ (n : ℕ) (s : AsioEventHandleState) : drain env d (n + 1) s =
    if !(s.round env d).want d || (s.round env d).destroyed || !env.ready (s.round env d) d then s.round env d
    else drain env d n (s.round env d) := rfl

theorem Good.round (h : s.Good) (hlive : s.destroyed = false) : (s.round env d).Good := by
  rw [AsioEventHandleState.round]
  split
  · exact h.call hlive _
  · exact h

theorem inCallback_round : (s.round env d).inCallback = s.inCallback := by
  rw [round]
  split
  · exact (frame_call env s _).1
  · rfl

theorem drain_spec (env : Env) (n : ℕ) (h : s.Good) (hlive : s.destroyed = false) :
    (drain env d n s).Good ∧ (drain env d n s).inCallback = s.inCallback := by
  induction n generalizing s with
  | zero => exact ⟨h, rfl⟩
  | succ n ih =>
    rw [drain_succ]
    split
    · exact ⟨h.round hlive, inCallback_round⟩
    · rename_i hgoes
      have hlive' : (s.round env d).destroyed = false := by
        by_contra hgone
        exact hgoes (by rw [Bool.not_eq_false] at hgone; simp [hgone])
      obtain ⟨hgood, hcallback⟩ := ih (h.round hlive) hlive'
      exact ⟨hgood, hcallback.trans inCallback_round⟩

/-- The calls of `on_read`, or of `on_write`. -/
def readyCalls (d : Direction) (s : AsioEventHandleState) : ℕ := s.calls.countP fun c => c.callback = .ready d

/-- **The loop goes on** until there is nothing to do, or for as many rounds as there may be. -/
theorem drain_stops (env : Env) (n : ℕ) (hset : s.onReady d = true) : (drain env d n s).want d = false ∨
    (drain env d n s).destroyed = true ∨ env.ready (drain env d n s) d = false ∨
      (drain env d n s).readyCalls d = s.readyCalls d + n := by
  induction n generalizing s with
  | zero => exact .inr (.inr (.inr rfl))
  | succ n ih =>
    obtain ⟨-, hset', hcalls⟩ := frame_call env s (.ready d)
    have hround : s.round env d = s.call env (.ready d) := by rw [round, if_pos hset]
    rw [← hround] at hset' hcalls
    rw [drain_succ]
    split
    · rename_i hends
      rw [Bool.or_eq_true, Bool.or_eq_true, Bool.not_eq_true', Bool.not_eq_true'] at hends
      rcases hends with (hwant | hgone) | hready
      · exact .inl hwant
      · exact .inr (.inl hgone)
      · exact .inr (.inr (.inl hready))
    · refine (ih ((congrFun hset' d).trans hset)).imp_right fun h => h.imp_right fun h => h.imp_right fun hcount => ?_
      have hone : (s.round env d).readyCalls d = s.readyCalls d + 1 := by
        rw [readyCalls, hcalls, List.countP_append, List.countP_singleton, if_pos (by simp)]
        rfl
      rw [hcount, hone]
      omega

/-- The handler of another direction, or of a wait that was cancelled, leaves the queue. -/
theorem Armed.eraseIdx {n : ℕ} {d' : Direction} {ended : Ended} (hn : s.handlers[n]? = some (d', ended))
    (h : s.Armed d) (hne : d ≠ d' ∨ ended = .aborted) : Armed d { s with handlers := s.handlers.eraseIdx n } := by
  rcases h with hwaits | ⟨e, he, hin⟩
  · exact .inl hwaits
  obtain ⟨i, hi⟩ := List.mem_iff_getElem?.mp hin
  refine .inr ⟨e, he, List.mem_eraseIdx_iff_getElem?.mpr ⟨i, ?_, hi⟩⟩
  rintro rfl
  obtain ⟨rfl, rfl⟩ := Prod.mk.inj (Option.some.inj (hi.symm.trans hn))
  exact hne.elim (fun hne => hne rfl) he

/-- No callback runs. -/
def Idle (s : AsioEventHandleState) : Prop := ∀ d, s.inCallback d = false

theorem handleReady_spec (hs : s.Sound) (hothers : ∀ d', d' ≠ d → s.Served d') (hlive : s.destroyed = false)
    (hidle : s.Idle) : (s.handleReady env d).Good ∧ (s.handleReady env d).Idle := by
  have hsound := hs.restart (d := d) (c := s.want d && !s.destroyed)
  have hothers' : ∀ d', d' ≠ d → Served d' (if (s.want d && !s.destroyed) = true then s.startWait d else s) := by
    intro d' hne
    split
    · exact (hothers d' hne).startWait d
    · exact hothers d' hne
  have hlive' : (if (s.want d && !s.destroyed) = true then s.startWait d else s).destroyed = false := by
    split
    · rw [destroyed_startWait, hlive]
    · exact hlive
  have hidle' : Idle (if (s.want d && !s.destroyed) = true then s.startWait d else s) := by
    intro d'
    split
    · rw [inCallback_startWait, hidle d']
    · exact hidle d'
  rw [handleReady]
  generalize (if (s.want d && !s.destroyed) = true then s.startWait d else s) = u at hsound hothers' hlive' hidle' ⊢
  -- inside the callback the direction itself need not be armed
  have hinside : (u.setInCallback d true).Good := by
    refine ⟨⟨hsound.pending, hsound.silent, hsound.told⟩, fun d' hlive hwant hcallback => ?_⟩
    have hne : d' ≠ d := by
      rintro rfl
      exact absurd ((Function.update_self _ _ _).symm.trans hcallback) Bool.true_eq_false.mp
    exact hothers' d' hne hlive hwant (hidle' d')
  obtain ⟨hgood, hcallback⟩ := drain_spec (d := d) env kMaxDrainIterations hinside hlive'
  generalize drain env d kMaxDrainIterations (u.setInCallback d true) = x at hgood hcallback ⊢
  have hsound' : (x.setInCallback d false).Sound := ⟨hgood.1.pending, hgood.1.silent, hgood.1.told⟩
  have hidle'' : (x.setInCallback d false).Idle := by
    intro d'
    show Function.update x.inCallback d false d' = false
    by_cases hd : d' = d
    · rw [hd, Function.update_self]
    · rw [Function.update_of_ne hd, hcallback]
      exact (Function.update_of_ne hd _ _).trans (hidle' d')
  refine ⟨⟨hsound'.restart, fun d' => ?_⟩, fun d' => ?_⟩
  · by_cases hd : d' = d
    · rw [hd]
      refine served_restart hsound' fun hwant _ hlive hpending => ?_
      rw [hwant, hlive, hpending]
      rfl
    · have hserved : (x.setInCallback d false).Served d' := fun hlive hwant hin =>
        hgood.2 d' hlive hwant ((Function.update_of_ne hd _ _).symm.trans hin)
      split
      · exact hserved.startWait d
      · exact hserved
  · split
    · rw [inCallback_startWait]
      exact hidle'' d'
    · exact hidle'' d'

/-- Where its handler leaves a direction wanted, there was nothing to do any more, or the loop came to its end. -/
theorem handleReady_ends (hset : s.onReady d = true) (hwant : (s.handleReady env d).want d = true)
    (hlive : (s.handleReady env d).destroyed = false) :
    (∃ u, env.ready u d = false ∧ u.calls = (s.handleReady env d).calls ∧
      u.handlers = (s.handleReady env d).handlers ∧ u.want = (s.handleReady env d).want) ∨
      (s.handleReady env d).readyCalls d = s.readyCalls d + kMaxDrainIterations := by
  have hrearm : ∀ (c : Bool) (v : AsioEventHandleState), (if c = true then v.startWait d else v).calls = v.calls ∧
      (if c = true then v.startWait d else v).onReady = v.onReady ∧
        (if c = true then v.startWait d else v).want = v.want ∧
          (if c = true then v.startWait d else v).destroyed = v.destroyed ∧
            (if c = true then v.startWait d else v).handlers = v.handlers := by
    intro c v
    split
    · exact ⟨calls_startWait d v, onReady_startWait d v, want_startWait d v, destroyed_startWait d v,
        handlers_startWait d v⟩
    · exact ⟨rfl, rfl, rfl, rfl, rfl⟩
  rw [readyCalls, readyCalls]
  rw [handleReady] at hwant hlive ⊢
  obtain ⟨hcalls, hset', -⟩ := hrearm (s.want d && !s.destroyed) s
  generalize (if (s.want d && !s.destroyed) = true then s.startWait d else s) = u at *
  have hends := drain_stops env (s := u.setInCallback d true) kMaxDrainIterations
    ((congrFun hset' d).trans hset)
  generalize drain env d kMaxDrainIterations (u.setInCallback d true) = x at hends hwant hlive ⊢
  obtain ⟨hcalls', -, hwant', hlive', hhandlers'⟩ := hrearm ((x.setInCallback d false).want d &&
    !(x.setInCallback d false).destroyed && !(x.setInCallback d false).waitPending d) (x.setInCallback d false)
  rw [hwant'] at hwant
  rw [hlive'] at hlive
  rw [hcalls', hwant', hhandlers', ← hcalls]
  rcases hends with hend | hend | hend | hend
  · exact absurd (hwant.symm.trans hend) Bool.true_eq_false.mp
  · exact absurd (hend.symm.trans hlive) Bool.true_eq_false.mp
  · exact .inl ⟨x, hend, rfl, rfl, rfl⟩
  · exact .inr hend

theorem handle_spec {n : ℕ} {ended : Ended} (hn : s.handlers[n]? = some (d, ended)) (hg : s.Good) (hidle : s.Idle) :
    Good (handle env d ended { s with handlers := s.handlers.eraseIdx n }) ∧
      Idle (handle env d ended { s with handlers := s.handlers.eraseIdx n }) := by
  have hpop : ∀ d', s.Armed d' → (d' ≠ d ∨ ended = .aborted) →
      Armed d' { s with handlers := s.handlers.eraseIdx n } := fun d' h hne => h.eraseIdx hn hne
  have hothers : ∀ d', (d' ≠ d ∨ ended = .aborted) → Served d' { s with handlers := s.handlers.eraseIdx n } :=
    fun d' hne hlive hwant hin => (hg.2 d' hlive hwant hin).imp_left fun harmed => hpop d' harmed hne
  rw [handle]
  by_cases hgone : s.destroyed = true
  · rw [if_pos hgone]
    have habsurd : s.destroyed ≠ false := ne_false_of_eq_true hgone
    refine ⟨⟨⟨fun d' hlive => ?_, hg.1.silent, hg.1.told⟩, fun d' hlive => ?_⟩, hidle⟩
    · exact absurd hlive habsurd
    · exact absurd hlive habsurd
  · have hlive : s.destroyed = false := Bool.eq_false_iff.mpr hgone
    rw [if_neg hgone]
    have hsound : Sound { s with
        handlers := s.handlers.eraseIdx n, waitPending := Function.update s.waitPending d false } := by
      refine ⟨fun d' _ hpending => ?_, hg.1.silent, hg.1.told⟩
      have hne : d' ≠ d := by
        rintro rfl
        exact absurd ((Function.update_self _ _ _).symm.trans hpending) Bool.false_ne_true
      exact hpop d' (hg.1.pending d' hlive ((Function.update_of_ne hne _ _).symm.trans hpending)) (.inl hne)
    cases ended with
    | ready => exact handleReady_spec hsound (fun d' hne => hothers d' (.inl hne)) hlive hidle
    | aborted => exact ⟨⟨hsound, fun d' => hothers d' (.inr rfl)⟩, hidle⟩
    | error value =>
      have hserved : ∀ d', Served d' { s with
          handlers := s.handlers.eraseIdx n, waitPending := Function.update s.waitPending d false
          failed := Function.update s.failed d true } := by
        intro d' hlive' hwant hin
        by_cases hd : d' = d
        · rw [hd]
          exact .inr (Function.update_self _ _ _)
        · exact (hothers d' (.inl hd) hlive' hwant hin).imp_right fun hfailed =>
            (Function.update_of_ne hd _ _).trans hfailed
      simp only
      split
      · refine ⟨?_, fun d' => (congrFun (frame_call env _ _).1 d').trans (hidle d')⟩
        -- the callback is told of the error before it does anything
        have hcalled : Good { s with
            handlers := s.handlers.eraseIdx n, waitPending := Function.update s.waitPending d false
            failed := Function.update s.failed d true
            calls := s.calls ++ [⟨.error value, s.destroyed⟩] } := by
          refine ⟨⟨hsound.pending, fun c hc => ?_, fun _ _ _ => ⟨value, ?_⟩⟩, hserved⟩
          · rcases List.mem_append.mp hc with hold | hnew
            · exact hg.1.silent c hold
            · rw [List.mem_singleton.mp hnew]
              exact hlive
          · refine List.mem_append_right _ (List.mem_singleton.mpr ?_)
            rw [hlive]
        exact hcalled.acts _
      · rename_i herror
        exact ⟨⟨⟨hsound.pending, hsound.silent, fun _ _ honError => absurd honError herror⟩, hserved⟩, hidle⟩

/-! ### Every run -/

theorem Armed.endWait (h : s.Armed d) (d' : Direction) (error : Option ℤ) : (s.endWait d' error).Armed d := by
  rw [AsioEventHandleState.endWait]
  split
  · exact h
  · by_cases hd : d = d'
    · rw [hd]
      refine .inr ⟨_, ?_, List.mem_append_right _ List.mem_cons_self⟩
      cases error <;> exact Ended.noConfusion
    · rcases h with hwaits | ⟨e, he, hin⟩
      · exact .inl (Nat.lt_of_lt_of_eq hwaits (Function.update_of_ne hd _ _).symm)
      · exact .inr ⟨e, he, List.mem_append_left _ hin⟩

theorem Good.endWait (h : s.Good) (d : Direction) (error : Option ℤ) : (s.endWait d error).Good := by
  have hfields : (s.endWait d error).destroyed = s.destroyed ∧ (s.endWait d error).waitPending = s.waitPending ∧
      (s.endWait d error).want = s.want ∧ (s.endWait d error).inCallback = s.inCallback ∧
        (s.endWait d error).failed = s.failed ∧ (s.endWait d error).calls = s.calls ∧
          (s.endWait d error).onError = s.onError := by
    rw [AsioEventHandleState.endWait]
    split <;> exact ⟨rfl, rfl, rfl, rfl, rfl, rfl, rfl⟩
  obtain ⟨hlive, hpending, hwant, hin, hfailed, hcalls, herror⟩ := hfields
  refine ⟨⟨fun d' => ?_, ?_, fun d' => ?_⟩, fun d' => ?_⟩
  · rw [hlive, hpending]
    exact fun hl hp => (h.1.pending d' hl hp).endWait d error
  · rw [hcalls]
    exact h.1.silent
  · rw [hcalls, hfailed, herror]
    exact h.1.told d'
  · rw [Served, hlive, hwant, hin, hfailed]
    exact fun hl hw hi => (h.2 d' hl hw hi).imp_left fun harmed => harmed.endWait d error

theorem good_step (env : Env) (s : AsioEventHandleState) (i : Input) (h : s.Good ∧ s.Idle) :
    (step env s i).Good ∧ (step env s i).Idle := by
  obtain ⟨hgood, hidle⟩ := h
  cases i with
  | ends d error =>
    refine ⟨hgood.endWait d error, fun d' => ?_⟩
    rw [step, AsioEventHandleState.endWait]
    split <;> exact hidle d'
  | runs n =>
    rw [step]
    cases hn : s.handlers[n]? with
    | none => exact ⟨hgood, hidle⟩
    | some handler => exact handle_spec hn hgood hidle
  | acts a =>
    refine ⟨hgood.act a, fun d => ?_⟩
    exact (congrFun (frame_act s a).inCallback d).trans (hidle d)

/-- The handler of a wait that ended with an error tells of it, before anything else. -/
theorem calls_error {n : ℕ} {value : ℤ} (hn : s.handlers[n]? = some (d, .error value)) (hlive : s.destroyed = false)
    (hset : s.onError = true) : (step env s (.runs n)).calls = s.calls ++ [⟨.error value, false⟩] := by
  rw [step, hn]
  simp only [handle, hlive, hset, Bool.false_eq_true, if_false, if_true]
  rw [(frame_call env _ _).2.2]

/-- **No registration goes deaf.**  In every run of a handle, whatever its callbacks do and `poll` says, between two
handlers: a direction that is wanted is armed, or has ended with an error, which `on_error` was told; each error is told,
with its value and once; no callback was called behind the destructor; and where the handler of a wait leaves its
direction wanted, nothing was left to do behind the last call, or there were as many calls as there may be. -/
theorem served (env : Env) (onReady : Direction → Bool) (onError wantRead wantWrite : Bool) (inputs : List Input) :
    let s := Runs.run (step env) (create onReady onError wantRead wantWrite) inputs
    (∀ d, s.destroyed = false → s.want d = true → s.Armed d ∨ s.failed d = true) ∧
      (∀ d, s.failed d = true → s.onError = true → ∃ value, ⟨.error value, false⟩ ∈ s.calls) ∧
      (∀ n d value, s.handlers[n]? = some (d, .error value) → s.destroyed = false → s.onError = true →
        (step env s (.runs n)).calls = s.calls ++ [⟨.error value, false⟩]) ∧
      (∀ c ∈ s.calls, c.destroyed = false) ∧
      ∀ n d, s.handlers[n]? = some (d, .ready) → s.destroyed = false → s.onReady d = true →
        let t := step env s (.runs n)
        t.want d = true → t.destroyed = false →
          (∃ u, env.ready u d = false ∧ u.calls = t.calls ∧ u.handlers = t.handlers ∧ u.want = t.want) ∨
            t.readyCalls d = s.readyCalls d + kMaxDrainIterations := by
  intro s
  have hinit : (create onReady onError wantRead wantWrite).Good ∧ (create onReady onError wantRead wantWrite).Idle := by
    refine ⟨startWaiting_spec ⟨?_, ?_, ?_⟩, fun d => ?_⟩
    · exact fun _ _ hpending => absurd hpending Bool.false_ne_true
    · exact fun _ hin => absurd hin List.not_mem_nil
    · exact fun _ hfailed => absurd hfailed Bool.false_ne_true
    · exact congrFun (frame_startWaiting _).inCallback d
  obtain ⟨hgood, hidle⟩ : s.Good ∧ s.Idle := Runs.run_invariant (good_step env) hinit inputs
  refine ⟨fun d hlive hwant => hgood.2 d hlive hwant (hidle d), hgood.1.told,
    fun _ _ _ hn hlive hset => calls_error hn hlive hset, hgood.1.silent, ?_⟩
  intro n d hn hlive hset t hwant hlive'
  have ht : t = handleReady env d { s with
      handlers := s.handlers.eraseIdx n, waitPending := Function.update s.waitPending d false } := by
    show step env s (.runs n) = _
    rw [step, hn]
    exact if_neg (ne_true_of_eq_false hlive)
  rw [ht] at hwant hlive' ⊢
  exact handleReady_ends hset hwant hlive'

/-- `on_write` calls `Update` while the handler of `on_read` is about to be called: from then on two waits run. -/
example :
    let s := Runs.run (step ⟨fun _ c => if c = .ready .write then [.update true false] else [], fun _ _ => false⟩)
      (create (fun _ => true) true true true) [.ends .write none, .ends .read none, .runs 0, .runs 0, .runs 0]
    s.waits .read = 2 ∧ s.handlers = [] := by decide

end AsioEventHandleState

end DbnPipe.DbWriter.Asio
