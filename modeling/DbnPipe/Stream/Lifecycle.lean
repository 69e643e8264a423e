import DbnPipe.Library.Runs
import DbnPipe.Stream.Component
import Mathlib.Data.List.Basic

/-!
# Closing a component

The `ProcessingGuard` objects of `lib/stream/component.hpp` as objects: they are created, moved and destroyed,
inside one another, with `RequestClose` at any depth.

* `Lifecycle σ` — a component, its guards from the innermost one on, and **the calls that closing makes**:
  `DisableWatchers`, the task given to the defer function, `DoClose`;
* `requestClose_comp`, `dropGuard_comp` — the flags are those of `Component`;
* `Lawful` — what holds of every state;
* `close_exactly_once` — `DoClose` is scheduled once, when the last guard from before the close is gone.

The component is owned by a shared pointer, as its `Create` function sees to.
-/

namespace DbnPipe

/-- A `ProcessingGuard`: a moved-from one is not active.  `early`: it is from before the close. -/
structure Guard where
  active : Bool
  early : Bool
deriving DecidableEq, Repr

/-- What closing calls. -/
inductive CloseCall where
  | disableWatchers
  | defer
  | doClose
deriving DecidableEq, Repr

/-- A component with its guards, the innermost first, and the calls made by closing.  `deferring`: a defer
function is set. -/
structure Lifecycle (σ : Type) where
  deferring : Bool
  comp : Component σ
  guards : List Guard := []
  calls : List CloseCall := []

namespace Lifecycle

variable {σ : Type}

/-- `ScheduleClose`: the task is deferred, or `DoClose` runs at once. -/
def scheduleClose (w : Lifecycle σ) : Lifecycle σ :=
  if w.comp.closeScheduled then w
  else
    { w with
      comp := { w.comp with closeScheduled := true, closePending := false }
      calls := w.calls ++ [if w.deferring then .defer else .doClose] }

/-- `RequestClose`. -/
def requestClose (w : Lifecycle σ) : Lifecycle σ :=
  if w.comp.closed then w
  else
    let w : Lifecycle σ := { w with comp := { w.comp with closed := true }, calls := w.calls ++ [.disableWatchers] }
    if 0 < w.comp.processingCount then { w with comp := { w.comp with closePending := true } }
    else w.scheduleClose

/-- A guard is constructed. -/
def hold (w : Lifecycle σ) : Lifecycle σ :=
  { w with comp := w.comp.enter, guards := ⟨true, !w.comp.closed⟩ :: w.guards }

/-- `TryGuard`. -/
def tryGuard (w : Lifecycle σ) : Lifecycle σ := if w.comp.closed then w else w.hold

/-- `EmitError` and `EmitDone` up to the call of the downstream; the guard lives while that runs. -/
def emit (s : Signal) (w : Lifecycle σ) : Lifecycle σ :=
  if w.comp.finalized then w
  else
    let w : Lifecycle σ :=
      { w with comp := { w.comp with finalized := true, signals := w.comp.signals ++ [s] } }
    w.hold

/-- The destructor of a guard. -/
def dropGuard (g : Guard) (w : Lifecycle σ) : Lifecycle σ :=
  if g.active then
    let w : Lifecycle σ := { w with comp := { w.comp with processingCount := w.comp.processingCount - 1 } }
    if w.comp.processingCount = 0 ∧ w.comp.closePending = true then w.scheduleClose else w
  else w

/-- The guard at place `i` is destroyed; those inside it are gone, or moved from. -/
def destroy (i : ℕ) (w : Lifecycle σ) : Lifecycle σ :=
  match w.guards[i]? with
  | none => w
  | some g =>
    if (w.guards.take i).any Guard.active then w
    else { w with guards := w.guards.take i ++ w.guards.drop (i + 1) }.dropGuard g

/-- The guard at place `i` is moved into a new one at its side. -/
def moveGuard (i : ℕ) (w : Lifecycle σ) : Lifecycle σ :=
  match w.guards[i]? with
  | none => w
  | some g => { w with guards := w.guards.take i ++ g :: { g with active := false } :: w.guards.drop (i + 1) }

/-- The event loop runs a task; that is never inside a guard. -/
def runTask (w : Lifecycle σ) : Lifecycle σ :=
  if w.guards = [] ∧ w.calls.count .doClose < w.calls.count .defer then
    { w with calls := w.calls ++ [.doClose] }
  else w

/-- What can happen; `Close` is `RequestClose`. -/
inductive Op where
  | tryGuard
  | emitError (e : Error)
  | emitDone
  | resetFinalized
  | moveGuard (i : ℕ)
  | destroy (i : ℕ)
  | requestClose
  | runTask
deriving DecidableEq, Repr

/-- One operation. -/
def step (w : Lifecycle σ) : Op → Lifecycle σ
  | .tryGuard => w.tryGuard
  | .emitError e => w.emit (.error e)
  | .emitDone => w.emit .done
  | .resetFinalized => { w with comp := { w.comp with finalized := false } }
  | .moveGuard i => w.moveGuard i
  | .destroy i => w.destroy i
  | .requestClose => w.requestClose
  | .runTask => w.runTask

/-- A new component. -/
def start (deferring : Bool) (own : σ) : Lifecycle σ := { deferring, comp := { own } }

/-! ### The flags are those of the component -/

theorem scheduleClose_comp (w : Lifecycle σ) : w.scheduleClose.comp = w.comp.scheduleClose := by
  rw [scheduleClose, Component.scheduleClose]
  split <;> rfl

theorem requestClose_comp (w : Lifecycle σ) : w.requestClose.comp = w.comp.requestClose := by
  rw [requestClose, Component.requestClose]
  split
  · rfl
  · dsimp only
    split
    · rfl
    · rw [scheduleClose_comp]

theorem hold_comp (w : Lifecycle σ) : w.hold.comp = w.comp.enter := rfl

/-- The destructor of a guard is that of the component's, if the guard was not moved from. -/
theorem dropGuard_comp (g : Guard) (w : Lifecycle σ) :
    (w.dropGuard g).comp = if g.active then w.comp.leave else w.comp := by
  rw [dropGuard, Component.leave]
  split
  · dsimp only
    split
    · rw [scheduleClose_comp]
    · rfl
  · rfl

/-! ### Guards from before the close -/

/-- Some guard from before the close is alive. -/
def waiting (gs : List Guard) : Bool := gs.any fun g => g.active && g.early

/-- Guards inside one another: inside a guard from after the close there are only such. -/
def Nested (gs : List Guard) : Prop := gs.Pairwise fun a b => b.early = false → a.early = false

theorem waiting_append (gs hs : List Guard) : waiting (gs ++ hs) = (waiting gs || waiting hs) := by
  simp only [waiting, List.any_append]

theorem waiting_cons (g : Guard) (gs : List Guard) :
    waiting (g :: gs) = (g.active && g.early || waiting gs) := by
  simp only [waiting, List.any_cons]

theorem waiting_of_inactive {gs : List Guard} (h : gs.any Guard.active = false) : waiting gs = false := by
  simp only [waiting, List.any_eq_false, Bool.and_eq_true] at h ⊢
  intro g hg hact
  exact h g hg hact.1

theorem alive_of_inactive {gs : List Guard} (h : gs.any Guard.active = false) :
    gs.countP Guard.active = 0 := by
  rw [List.countP_eq_zero]
  exact List.any_eq_false.mp h

/-- A guard at place `i`, and what is inside and outside of it. -/
theorem guards_split {gs : List Guard} {i : ℕ} {g : Guard} (h : gs[i]? = some g) :
    gs = gs.take i ++ g :: gs.drop (i + 1) := by
  obtain ⟨hlt, hget⟩ := List.getElem?_eq_some_iff.mp h
  rw [← hget, List.getElem_cons_drop, List.take_append_drop]

/-- **Which guards are alive** once a guard from before the close is gone. -/
theorem alive_outside {g : Guard} {gs : List Guard} (hn : Nested (g :: gs)) (hg : g.early = true) :
    waiting gs = decide (0 < gs.countP Guard.active) := by
  rw [Nested, List.pairwise_cons] at hn
  rw [Bool.eq_iff_iff, decide_eq_true_eq, List.countP_pos_iff, waiting, List.any_eq_true]
  constructor
  · rintro ⟨b, hb, hact⟩
    rw [Bool.and_eq_true] at hact
    exact ⟨b, hb, hact.1⟩
  · rintro ⟨b, hb, hact⟩
    refine ⟨b, hb, ?_⟩
    rw [hact, Bool.true_and]
    by_contra hne
    have hlate := hn.1 b hb (eq_false_of_ne_true hne)
    exact absurd (hg.symm.trans hlate) (by simp)

/-! ### The invariant -/

/-- The calls of a close that was scheduled; `ran`: the task has run. -/
def scheduledCalls (deferring ran : Bool) : List CloseCall :=
  .disableWatchers :: (if deferring then .defer :: (if ran then [.doClose] else []) else [.doClose])

/-- What holds of every state. -/
structure Lawful (w : Lifecycle σ) : Prop where
  count : w.comp.processingCount = w.guards.countP Guard.active
  nested : Nested w.guards
  opened : w.comp.closed = false → w.comp.closePending = false ∧ w.comp.closeScheduled = false ∧
    w.calls = [] ∧ ∀ g ∈ w.guards, g.early = true
  waits : w.comp.closed = true → waiting w.guards = true →
    w.comp.closePending = true ∧ w.comp.closeScheduled = false ∧ w.calls = [.disableWatchers]
  done : w.comp.closed = true → waiting w.guards = false →
    w.comp.closePending = false ∧ w.comp.closeScheduled = true ∧
      ∃ ran, w.calls = scheduledCalls w.deferring ran

variable {w : Lifecycle σ}

theorem lawful_hold (h : Lawful w) : Lawful w.hold := by
  have hcount : w.hold.comp.processingCount = w.hold.guards.countP Guard.active := by
    show w.comp.processingCount + 1 = _
    rw [hold, List.countP_cons_of_pos rfl, h.count]
  have hnested : Nested w.hold.guards := by
    refine List.pairwise_cons.mpr ⟨fun b hb hlate => ?_, h.nested⟩
    cases hc : w.comp.closed with
    | true => rfl
    | false => exact absurd ((h.opened hc).2.2.2 b hb) (by simp [hlate])
  refine ⟨hcount, hnested, fun hc => ?_, fun hc hw => ?_, fun hc hw => ?_⟩
  · have hc' : w.comp.closed = false := hc
    obtain ⟨h1, h2, h3, h4⟩ := h.opened hc'
    refine ⟨h1, h2, h3, ?_⟩
    intro g hg
    rcases List.mem_cons.mp hg with rfl | hg
    · show (!w.comp.closed) = true
      rw [hc']
      rfl
    · exact h4 g hg
  · have hc' : w.comp.closed = true := hc
    refine h.waits hc' ?_
    rw [hold, waiting_cons, hc'] at hw
    simpa using hw
  · have hc' : w.comp.closed = true := hc
    refine h.done hc' ?_
    rw [hold, waiting_cons, hc'] at hw
    simpa using hw

/-- A change of what the invariant is not about. -/
theorem Lawful.congr {w' : Lifecycle σ} (h : Lawful w) (h1 : w'.comp.processingCount = w.comp.processingCount)
    (h2 : w'.comp.closed = w.comp.closed) (h3 : w'.comp.closePending = w.comp.closePending)
    (h4 : w'.comp.closeScheduled = w.comp.closeScheduled) (h5 : w'.guards = w.guards)
    (h6 : w'.calls = w.calls) (h7 : w'.deferring = w.deferring) : Lawful w' := by
  constructor
  · rw [h1, h5]; exact h.count
  · rw [h5]; exact h.nested
  · rw [h2, h3, h4, h5, h6]; exact h.opened
  · rw [h2, h3, h4, h5, h6]; exact h.waits
  · rw [h2, h3, h4, h5, h6, h7]; exact h.done

theorem lawful_tryGuard (h : Lawful w) : Lawful w.tryGuard := by
  rw [tryGuard]
  split
  · exact h
  · exact lawful_hold h

theorem lawful_emit (h : Lawful w) (s : Signal) : Lawful (w.emit s) := by
  rw [emit]
  split
  · exact h
  · apply lawful_hold
    exact h.congr rfl rfl rfl rfl rfl rfl rfl

/-- **`RequestClose`.** -/
theorem lawful_requestClose (h : Lawful w) : Lawful w.requestClose := by
  cases hc : w.comp.closed with
  | true =>
    rw [requestClose, if_pos hc]
    exact h
  | false =>
    obtain ⟨h1, h2, h3, h4⟩ := h.opened hc
    have hwait : waiting w.guards = decide (0 < w.comp.processingCount) := by
      rw [h.count, Bool.eq_iff_iff, decide_eq_true_eq, List.countP_pos_iff, waiting, List.any_eq_true]
      constructor
      · rintro ⟨b, hb, hact⟩
        exact ⟨b, hb, (Bool.and_eq_true _ _ ▸ hact).1⟩
      · rintro ⟨b, hb, hact⟩
        exact ⟨b, hb, by rw [hact, h4 b hb]; rfl⟩
    by_cases hpos : 0 < w.comp.processingCount
    · have heq : w.requestClose = { w with
          comp := { w.comp with closed := true, closePending := true }
          calls := w.calls ++ [.disableWatchers] } := by
        simp only [requestClose, hc, Bool.false_eq_true, if_false, if_pos hpos]
      rw [heq]
      refine ⟨h.count, h.nested, fun hopen => ?_, fun _ _ => ⟨rfl, h2, ?_⟩, fun _ hw => ?_⟩
      · exact absurd hopen (by simp)
      · show w.calls ++ _ = _
        rw [h3]
        rfl
      · exact absurd (hw.symm.trans hwait) (by simp [hpos])
    · have heq : w.requestClose = { w with
          comp := { w.comp with closed := true, closePending := false, closeScheduled := true }
          calls := w.calls ++ [.disableWatchers] ++ [if w.deferring then .defer else .doClose] } := by
        simp only [requestClose, hc, Bool.false_eq_true, if_false, if_neg hpos, scheduleClose, h2]
      rw [heq]
      refine ⟨h.count, h.nested, fun hopen => ?_, fun _ hw => ?_, fun _ _ => ⟨rfl, rfl, false, ?_⟩⟩
      · exact absurd hopen (by simp)
      · exact absurd (hw.symm.trans hwait) (by simp [hpos])
      · show w.calls ++ _ ++ _ = scheduledCalls w.deferring false
        rw [h3, scheduledCalls]
        cases w.deferring <;> rfl

/-- The guards change, and with them the count. -/
theorem lawful_moveGuard (h : Lawful w) (i : ℕ) : Lawful (w.moveGuard i) := by
  rw [moveGuard]
  split
  · exact h
  · rename_i g hg
    have hsplit := guards_split hg
    have hwait : waiting (w.guards.take i ++ g :: { g with active := false } :: w.guards.drop (i + 1)) =
        waiting w.guards := by
      conv_rhs => rw [hsplit]
      simp only [waiting_append, waiting_cons, Bool.false_and, Bool.false_or]
    have hcount : (w.guards.take i ++ g :: { g with active := false } :: w.guards.drop (i + 1)).countP
        Guard.active = w.guards.countP Guard.active := by
      conv_rhs => rw [hsplit]
      simp [List.countP_append, List.countP_cons]
    refine ⟨h.count.trans hcount.symm, ?_, fun hc => ?_, fun hc hw => ?_, fun hc hw => ?_⟩
    · have hn := h.nested
      rw [hsplit] at hn
      simp only [Nested, List.pairwise_append, List.pairwise_cons, List.mem_cons] at hn ⊢
      obtain ⟨h1, ⟨h2, h3⟩, h4⟩ := hn
      refine ⟨h1, ⟨?_, h2, h3⟩, ?_⟩
      · rintro b (rfl | hb) hlate
        · exact hlate
        · exact h2 b hb hlate
      · rintro a ha b (rfl | rfl | hb) hlate
        · exact h4 a ha _ (Or.inl rfl) hlate
        · exact h4 a ha g (Or.inl rfl) hlate
        · exact h4 a ha b (Or.inr hb) hlate
    · obtain ⟨h1, h2, h3, h4⟩ := h.opened hc
      refine ⟨h1, h2, h3, fun b hb => ?_⟩
      rw [hsplit] at h4
      simp only [List.mem_append, List.mem_cons] at h4 hb
      rcases hb with hb | rfl | rfl | hb
      · exact h4 b (Or.inl hb)
      · exact h4 b (Or.inr (Or.inl rfl))
      · exact h4 g (Or.inr (Or.inl rfl))
      · exact h4 b (Or.inr (Or.inr hb))
    · exact h.waits hc (hwait.symm.trans hw)
    · exact h.done hc (hwait.symm.trans hw)

/-- **A guard is destroyed.** -/
theorem lawful_destroy (h : Lawful w) (i : ℕ) : Lawful (w.destroy i) := by
  rw [destroy]
  split
  · exact h
  rename_i g hg
  split
  · exact h
  rename_i hin
  have hin : (w.guards.take i).any Guard.active = false := eq_false_of_ne_true hin
  have hsplit := guards_split hg
  have hsub : (w.guards.take i ++ w.guards.drop (i + 1)).Sublist w.guards := by
    conv_rhs => rw [hsplit]
    exact List.Sublist.append_left (List.sublist_cons_self _ _) _
  have hnested : Nested (w.guards.take i ++ w.guards.drop (i + 1)) := List.Pairwise.sublist hsub h.nested
  have houter : Nested (g :: w.guards.drop (i + 1)) := by
    have hn := h.nested
    rw [hsplit] at hn
    exact (List.pairwise_append.mp hn).2.1
  have hwait : waiting w.guards = (g.active && g.early || waiting (w.guards.drop (i + 1))) := by
    conv_lhs => rw [hsplit]
    rw [waiting_append, waiting_of_inactive hin, waiting_cons, Bool.false_or]
  have hwait' : waiting (w.guards.take i ++ w.guards.drop (i + 1)) = waiting (w.guards.drop (i + 1)) := by
    rw [waiting_append, waiting_of_inactive hin, Bool.false_or]
  have halive' : (w.guards.take i ++ w.guards.drop (i + 1)).countP Guard.active =
      (w.guards.drop (i + 1)).countP Guard.active := by
    rw [List.countP_append, alive_of_inactive hin, Nat.zero_add]
  have halive : w.comp.processingCount =
      (w.guards.drop (i + 1)).countP Guard.active + if g.active then 1 else 0 := by
    rw [h.count]
    conv_lhs => rw [hsplit]
    rw [List.countP_append, alive_of_inactive hin, Nat.zero_add, List.countP_cons]
  generalize hgs : w.guards.take i ++ w.guards.drop (i + 1) = gs at *
  generalize w.guards.drop (i + 1) = outer at *
  cases hact : g.active with
  | false =>
    rw [hact, Bool.false_and, Bool.false_or] at hwait
    rw [hact, if_neg (by simp), Nat.add_zero] at halive
    simp only [dropGuard, hact, Bool.false_eq_true, if_false]
    refine ⟨halive.trans halive'.symm, hnested, fun hc => ?_, fun hc hw => ?_, fun hc hw => ?_⟩
    · obtain ⟨h1, h2, h3, h4⟩ := h.opened hc
      exact ⟨h1, h2, h3, fun b hb => h4 b (hsub.subset hb)⟩
    · exact h.waits hc (hwait.trans (hwait'.symm.trans hw))
    · exact h.done hc (hwait.trans (hwait'.symm.trans hw))
  | true =>
    rw [hact, if_pos rfl] at halive
    rw [hact, Bool.true_and] at hwait
    have hcount : w.comp.processingCount - 1 = gs.countP Guard.active := by omega
    simp only [dropGuard, hact, if_true]
    by_cases hfire : w.comp.processingCount - 1 = 0 ∧ w.comp.closePending = true
    · have hclosed : w.comp.closed = true := by
        by_contra hne
        have hp := (h.opened (eq_false_of_ne_true hne)).1
        exact absurd (hp.symm.trans hfire.2) (by simp)
      have hwaiting : waiting w.guards = true := by
        by_contra hne
        have hp := (h.done hclosed (eq_false_of_ne_true hne)).1
        exact absurd (hp.symm.trans hfire.2) (by simp)
      obtain ⟨-, hsched, hcalls⟩ := h.waits hclosed hwaiting
      rw [if_pos hfire, scheduleClose, if_neg (by simp [hsched])]
      have hnone : waiting gs = false := by
        apply waiting_of_inactive
        rw [List.any_eq_false]
        exact List.countP_eq_zero.mp (hcount.symm.trans hfire.1)
      refine ⟨hcount, hnested, fun hc => ?_, fun _ hw => ?_, fun _ _ => ⟨rfl, rfl, false, ?_⟩⟩
      · exact absurd (hclosed.symm.trans hc) (by simp)
      · exact absurd (hnone.symm.trans hw) (by simp)
      · show w.calls ++ _ = scheduledCalls w.deferring false
        rw [hcalls, scheduledCalls]
        cases w.deferring <;> rfl
    · rw [if_neg hfire]
      refine ⟨hcount, hnested, fun hc => ?_, fun hc hw => ?_, fun hc hw => ?_⟩
      · obtain ⟨h1, h2, h3, h4⟩ := h.opened hc
        exact ⟨h1, h2, h3, fun b hb => h4 b (hsub.subset hb)⟩
      · refine h.waits hc ?_
        rw [hwait, hwait'.symm.trans hw, Bool.or_true]
      · refine h.done hc ?_
        have houter' : waiting outer = false := hwait'.symm.trans hw
        by_contra hne
        have hearly : g.early = true := by
          have hor : (g.early || waiting outer) = true := hwait.symm.trans (by simpa using hne)
          rwa [houter', Bool.or_false] at hor
        -- the last guard from before the close is gone, so the close is scheduled
        have hp := (h.waits hc (by simpa using hne)).1
        have hpos : ¬0 < outer.countP Guard.active := by
          rw [alive_outside houter hearly, decide_eq_false_iff_not] at houter'
          exact houter'
        exact hfire ⟨by omega, hp⟩

theorem lawful_runTask (h : Lawful w) : Lawful w.runTask := by
  rw [runTask]
  split
  · rename_i hcond
    obtain ⟨hguards, hdue⟩ := hcond
    have hwaiting : waiting w.guards = false := by
      rw [hguards]
      rfl
    cases hc : w.comp.closed with
    | false =>
      rw [(h.opened hc).2.2.1] at hdue
      exact absurd hdue (by simp)
    | true =>
      obtain ⟨h1, h2, ran, hcalls⟩ := h.done hc hwaiting
      rw [hcalls, scheduledCalls] at hdue
      cases hd : w.deferring with
      | false =>
        rw [hd] at hdue
        exact absurd hdue (by simp)
      | true =>
        cases ran with
        | true =>
          rw [hd] at hdue
          exact absurd hdue (by decide)
        | false =>
          refine ⟨h.count, h.nested, fun ho => ?_, fun _ hw => ?_, fun _ _ => ⟨h1, h2, true, ?_⟩⟩
          · exact absurd (hc.symm.trans ho) (by simp)
          · exact absurd (hwaiting.symm.trans hw) (by simp)
          · show w.calls ++ [.doClose] = scheduledCalls true true
            rw [hcalls, hd]
            rfl
  · exact h

theorem lawful_step (h : Lawful w) (op : Op) : Lawful (w.step op) := by
  cases op with
  | tryGuard => exact lawful_tryGuard h
  | emitError e => exact lawful_emit h _
  | emitDone => exact lawful_emit h _
  | resetFinalized => exact h.congr rfl rfl rfl rfl rfl rfl rfl
  | moveGuard i => exact lawful_moveGuard h i
  | destroy i => exact lawful_destroy h i
  | requestClose => exact lawful_requestClose h
  | runTask => exact lawful_runTask h

theorem lawful_start (deferring : Bool) (own : σ) : Lawful (start deferring own) := by
  refine ⟨rfl, List.Pairwise.nil, fun _ => ⟨rfl, rfl, rfl, ?_⟩, fun hc => ?_, fun hc => ?_⟩
  · intro g hg
    exact absurd hg List.not_mem_nil
  · exact absurd hc (by simp [start])
  · exact absurd hc (by simp [start])

/-! ### Runs -/

theorem scheduleClose_closed (w : Lifecycle σ) : w.scheduleClose.comp.closed = w.comp.closed := by
  rw [scheduleClose]
  split <;> rfl

theorem dropGuard_closed (g : Guard) (w : Lifecycle σ) : (w.dropGuard g).comp.closed = w.comp.closed := by
  rw [dropGuard]
  split
  · dsimp only
    split
    · rw [scheduleClose_closed]
    · rfl
  · rfl

theorem step_closed (w : Lifecycle σ) (op : Op) :
    (w.step op).comp.closed = (w.comp.closed || op == .requestClose) := by
  cases op with
  | tryGuard =>
    show w.tryGuard.comp.closed = _
    rw [tryGuard]
    split <;> exact (Bool.or_false _).symm
  | emitError e =>
    show (w.emit _).comp.closed = _
    rw [emit]
    split <;> exact (Bool.or_false _).symm
  | emitDone =>
    show (w.emit _).comp.closed = _
    rw [emit]
    split <;> exact (Bool.or_false _).symm
  | resetFinalized => exact (Bool.or_false _).symm
  | moveGuard i =>
    show (w.moveGuard i).comp.closed = _
    rw [moveGuard]
    split <;> exact (Bool.or_false _).symm
  | destroy i =>
    show (w.destroy i).comp.closed = (w.comp.closed || false)
    rw [destroy, Bool.or_false]
    split
    · rfl
    · split
      · rfl
      · rw [dropGuard_closed]
  | requestClose =>
    show w.requestClose.comp.closed = (w.comp.closed || true)
    rw [requestClose_comp, Component.requestClose_closed, Bool.or_true]
  | runTask =>
    show w.runTask.comp.closed = _
    rw [runTask]
    split <;> exact (Bool.or_false _).symm

theorem run_closed (w : Lifecycle σ) (ops : List Op) :
    (Runs.run step w ops).comp.closed = (w.comp.closed || ops.contains .requestClose) := by
  induction ops generalizing w with
  | nil => simp
  | cons op ops ih =>
    rw [Runs.run_cons, ih, step_closed, List.contains_cons, Bool.or_assoc, Bool.beq_comm]

/-- How often `DoClose` was scheduled: given to the defer function, or called without one. -/
def timesScheduled (w : Lifecycle σ) : ℕ := w.calls.count (if w.deferring then .defer else .doClose)

/-- **Exactly-once close.**  Without a `RequestClose` nothing is called.  With one, `DisableWatchers` ran once,
`DoClose` is scheduled once as soon as no guard from before the close is alive and not earlier, it ran at most
as often, and `TryGuard` gives no guard. -/
theorem close_exactly_once (deferring : Bool) (own : σ) (ops : List Op) :
    let w := Runs.run step (start deferring own) ops
    (.requestClose ∉ ops → w.calls = []) ∧
      (.requestClose ∈ ops →
        w.calls.count .disableWatchers = 1 ∧
        w.timesScheduled = (if waiting w.guards then 0 else 1) ∧
        w.calls.count .doClose ≤ w.timesScheduled ∧
        w.tryGuard = w) := by
  intro w
  have hstep : ∀ (w : Lifecycle σ) op, Lawful w → Lawful (w.step op) := fun _ op h => lawful_step h op
  have h := Runs.run_invariant hstep (lawful_start deferring own) ops
  have hclosed : w.comp.closed = ops.contains .requestClose := run_closed (start deferring own) ops
  refine ⟨fun hnone => (h.opened ?_).2.2.1, fun hsome => ?_⟩
  · rw [hclosed]
    simpa using hnone
  · have hc : w.comp.closed = true := by
      rw [hclosed]
      simpa using hsome
    have htry : w.tryGuard = w := by rw [tryGuard, if_pos hc]
    rw [timesScheduled]
    cases hw : waiting w.guards with
    | true =>
      obtain ⟨-, -, hcalls⟩ := h.waits hc hw
      rw [hcalls]
      cases w.deferring <;> exact ⟨rfl, rfl, Nat.le_refl _, htry⟩
    | false =>
      obtain ⟨-, -, ran, hcalls⟩ := h.done hc hw
      rw [hcalls]
      cases w.deferring <;> cases ran <;> exact ⟨rfl, rfl, by decide, htry⟩

/-- A guard, a close inside it, an error emitted inside that, and everything released. -/
example : (Runs.run step (start true ())
    [.tryGuard, .requestClose, .emitDone, .destroy 1, .destroy 0, .destroy 0, .runTask, .runTask]).calls =
      [.disableWatchers, .defer, .doClose] := by decide

end Lifecycle

end DbnPipe
