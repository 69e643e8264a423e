import DbnPipe.Stream.DeferredQueue

/-!
# What the wake descriptor is good for

The order of the deferred callbacks, who holds the mutex while one runs, and **whether `Poll` blocks on a queue that
is not empty**.

* `Ordered` — what was pushed is what was called, what is about to be called and what waits, in that order;
* `Apart` — the loop's thread holds the mutex for a few steps only, and never while it calls;
* `Woken` — before `epoll_wait`, a queue that is not empty has its wake: **written, or about to be**;
* `Wakes` — the loop's thread writes no wake of its own: between the first pass and `epoll_wait` it may push only
  where one is written already;
* `once_in_order`, `no_lost_wakeup` — over every run.
-/

namespace DbnPipe.Deferred

/-! ### Places -/

/-- The thread holds the mutex. -/
def Pc.holds : Pc → Bool
  | .push _ | .unlock | .timers => true
  | _ => false

/-- The thread has pushed and not looked yet, or is about to write. -/
def Pc.owes : Pc → Bool
  | .unlock | .check | .wake => true
  | _ => false

/-- The loop's thread holds the mutex. -/
def Phase.holds : Phase → Bool
  | .swapping _ | .unlocking _ => true
  | _ => false

/-- The loop's thread calls. -/
def Phase.calls : Phase → Bool
  | .running _ | .dispatching _ => true
  | _ => false

/-- The local `callbacks` are in use. -/
def Phase.drains : Phase → Bool
  | .unlocking _ | .running _ => true
  | _ => false

/-- The queue will not be looked at before `epoll_wait`. -/
def Phase.blocks : Phase → Bool
  | .unlocking .first | .running .first | .waiting => true
  | _ => false

namespace State

variable (loop : ThreadId)

/-! ### Order -/

/-- **What was pushed**, in order: called, about to be called, waiting. -/
structure Ordered (s : State) : Prop where
  account : s.queued.filter (·.callable) = s.ran ++ (s.callbacks ++ s.deferredCallbacks).filter (·.callable)
  emptied : s.phase.drains = false → s.callbacks = []

theorem ordered_init : Ordered {} where
  account := rfl
  emptied _ := rfl

theorem Ordered.moves {s s' : State} {a : Label} (hs : s.Ordered) (h : Moves loop s a s') : s'.Ordered := by
  cases h with
  | push hpc =>
    refine ⟨?_, hs.emptied⟩
    show (s.queued ++ [_]).filter _ = s.ran ++ (s.callbacks ++ (s.deferredCallbacks ++ [_])).filter _
    rw [← List.append_assoc, List.filter_append, List.filter_append, hs.account, List.append_assoc]
  | swap hphase =>
    refine ⟨?_, fun hdrains => absurd hdrains Bool.true_eq_false.mp⟩
    have hempty : s.callbacks = [] := hs.emptied (by rw [hphase]; rfl)
    show _ = s.ran ++ (s.deferredCallbacks ++ s.callbacks).filter _
    rw [hs.account, hempty, List.nil_append, List.append_nil]
  | @call p cb rest hphase hcallbacks hin =>
    refine ⟨?_, fun hdrains => ?_⟩
    · show _ = (if cb.callable = true then s.ran ++ [cb] else s.ran) ++ (rest ++ s.deferredCallbacks).filter _
      rw [hs.account, hcallbacks, List.cons_append]
      cases hcb : cb.callable with
      | true => rw [List.filter_cons_of_pos hcb, if_pos rfl, List.append_assoc, List.singleton_append]
      | false => rw [List.filter_cons_of_neg (by rw [hcb]; exact Bool.false_ne_true), if_neg Bool.false_ne_true]
    · have hdrains' : s.phase.drains = false := hdrains
      rw [hphase] at hdrains'
      exact absurd hdrains' Bool.true_eq_false.mp
  | finish hphase hcallbacks hin => exact ⟨hs.account, fun _ => hcallbacks⟩
  | unlockQueue hphase => exact ⟨hs.account, fun hdrains => absurd hdrains Bool.true_eq_false.mp⟩
  | poll hphase hin => exact ⟨hs.account, fun _ => hs.emptied (by rw [hphase]; rfl)⟩
  | store hphase => exact ⟨hs.account, fun _ => hs.emptied (by rw [hphase]; rfl)⟩
  | lockQueue hphase hfree => exact ⟨hs.account, fun _ => hs.emptied (by rw [hphase]; rfl)⟩
  | interrupt hphase => exact ⟨hs.account, fun _ => hs.emptied (by rw [hphase]; rfl)⟩
  | ready hphase hready => exact ⟨hs.account, fun _ => hs.emptied (by rw [hphase]; rfl)⟩
  | event hphase hin => exact ⟨hs.account, fun _ => hs.emptied (by rw [hphase]; rfl)⟩
  | finishEvents hphase hin => exact ⟨hs.account, fun _ => hs.emptied (by rw [hphase]; rfl)⟩
  | defer | lock | unlock | check | wake | notify | lockTimers | unlockTimers | ret => exact ⟨hs.account, hs.emptied⟩

/-! ### The mutex -/

/-- **The loop's thread** is in one place at a time, and holds the mutex where it does. -/
structure Apart (s : State) : Prop where
  called : s.called = true → s.phase.calls = true
  inside : s.pcs loop ≠ .outside → s.phase = .idle ∨ s.called = true
  holder : s.deferredMutex = some loop → (s.pcs loop).holds = true ∨ s.phase.holds = true
  threadId : ∀ t, s.loopThreadId = some t → t = loop

theorem apart_init : Apart loop {} where
  called h := absurd h Bool.false_ne_true
  inside h := absurd rfl h
  holder h := absurd h (Option.some_ne_none loop).symm
  threadId t h := absurd h (Option.some_ne_none t).symm

/-- Between its calls and polls the loop's thread is nowhere in `Defer`. -/
theorem Apart.inPoll {s : State} (hs : s.Apart loop) (hidle : s.phase ≠ .idle) (hcalls : s.phase.calls = false) :
    InPoll loop s := by
  have hcalled : s.called = false := Bool.eq_false_iff.mpr fun h => by simp [hs.called h] at hcalls
  refine ⟨by_contra fun hpc => ?_, hcalled⟩
  rcases hs.inside hpc with h | h
  · exact hidle h
  · exact absurd (hcalled.symm.trans h) Bool.false_ne_true

/-- Outside of `Defer` it holds the mutex in `ProcessDeferredCallbacks` only. -/
theorem Apart.released {s : State} (hs : s.Apart loop) (hpc : (s.pcs loop).holds = false)
    (hmutex : s.deferredMutex = some loop) : s.phase.holds = true :=
  (hs.holder hmutex).resolve_left (by rw [hpc]; exact Bool.false_ne_true)

/-- A thread goes on in `Defer`, and may take the mutex or give it back. -/
theorem Apart.goes {s s' : State} {t : ThreadId} {pc : Pc} (hs : s.Apart loop) (hpcs : s'.pcs = (s.goto t pc).pcs)
    (hphase : s'.phase = s.phase) (hcalled : s'.called = s.called) (hid : s'.loopThreadId = s.loopThreadId)
    (hinside : t = loop → pc ≠ .outside → s.phase = .idle ∨ s.called = true)
    (hholder : s'.deferredMutex = some loop → t = loop ∧ (pc.holds = true ∨ s.phase.holds = true) ∨
      t ≠ loop ∧ s.deferredMutex = some loop) : s'.Apart loop := by
  have hpc : s'.pcs loop = if loop = t then pc else s.pcs loop := by rw [hpcs, goto_pcs]
  refine ⟨fun h => ?_, fun h => ?_, fun h => ?_, fun u h => hs.threadId u (hid ▸ h)⟩
  · rw [hphase]
    exact hs.called (hcalled ▸ h)
  · rw [hphase, hcalled]
    by_cases ht : loop = t
    · rw [hpc, if_pos ht] at h
      exact hinside ht.symm h
    · rw [hpc, if_neg ht] at h
      exact hs.inside h
  · rw [hpc, hphase]
    rcases hholder h with ⟨ht, hholds⟩ | ⟨ht, hmutex⟩
    · rw [if_pos ht.symm]
      exact hholds
    · rw [if_neg (Ne.symm ht)]
      exact hs.holder hmutex

/-- `Poll` goes on in its own code. -/
theorem Apart.polls {s s' : State} (hin : InPoll loop s) (hpcs : s'.pcs = s.pcs)
    (hid : ∀ t, s'.loopThreadId = some t → t = loop) (hcalled : s'.called = true → s'.phase.calls = true)
    (hholder : s'.deferredMutex = some loop → s'.phase.holds = true) : s'.Apart loop :=
  ⟨hcalled, fun h => absurd ((congrFun hpcs loop).trans hin.1) h, fun h => Or.inr (hholder h), hid⟩

/-- Every step: a thread that takes the mutex or gives it back is where it says, and the loop's thread is in no
callback where it is in `Poll` itself. -/
theorem Apart.moves {s s' : State} {a : Label} (hs : s.Apart loop) (h : Moves loop s a s') : s'.Apart loop := by
  -- where `Poll` is in its own code, and `p` says that it does not hold the mutex
  have hfree : ∀ {p}, s.phase = p → p.holds = false → InPoll loop s → s.deferredMutex ≠ some loop :=
    fun hphase hp hin hmutex => by
      have hholds := hs.released loop (by rw [hin.1]; rfl) hmutex
      rw [hphase, hp] at hholds
      exact Bool.false_ne_true hholds
  -- a thread that neither takes the mutex nor gives it back, at a place where it does not hold it
  have hkept : ∀ {t : ThreadId} {pc : Pc}, (s.pcs t).holds = false → s.deferredMutex = some loop →
      t = loop ∧ (pc.holds = true ∨ s.phase.holds = true) ∨ t ≠ loop ∧ s.deferredMutex = some loop :=
    fun {t _} hpc hmutex => by
      by_cases ht : t = loop
      · exact Or.inl ⟨ht, Or.inr (hs.released loop (ht ▸ hpc) hmutex)⟩
      · exact Or.inr ⟨ht, hmutex⟩
  have hcalls : ∀ {p}, s.phase = p → p.calls = false → p ≠ .idle → InPoll loop s := fun hphase hp hidle =>
    hs.inPoll loop (hphase ▸ hidle) (hphase ▸ hp)
  have hnot : ∀ {p : Phase}, InPoll loop s → s.called = true → p.calls = true := fun hin h =>
    absurd (hin.2.symm.trans h) Bool.false_ne_true
  cases h with
  | @defer t cb hmay =>
    exact hs.goes loop rfl rfl rfl rfl (fun ht _ => hmay.2 ht) (hkept (by rw [hmay.1]; rfl))
  | @lock t cb hpc hmutex =>
    refine hs.goes loop rfl rfl rfl rfl (fun ht _ => hs.inside (by rw [← ht, hpc]; exact Pc.noConfusion)) fun h => ?_
    exact Or.inl ⟨Option.some_inj.mp h, Or.inl rfl⟩
  | @push t cb hpc =>
    refine hs.goes loop rfl rfl rfl rfl (fun ht _ => hs.inside (by rw [← ht, hpc]; exact Pc.noConfusion)) fun h => ?_
    by_cases ht : t = loop
    · exact Or.inl ⟨ht, Or.inl rfl⟩
    · exact Or.inr ⟨ht, h⟩
  | @unlock t hpc =>
    exact hs.goes loop rfl rfl rfl rfl (fun ht _ => hs.inside (by rw [← ht, hpc]; exact Pc.noConfusion))
      fun h => absurd h (Option.some_ne_none loop).symm
  | @check t hpc =>
    exact hs.goes loop rfl rfl rfl rfl (fun ht _ => hs.inside (by rw [← ht, hpc]; exact Pc.noConfusion))
      (hkept (by rw [hpc]; rfl))
  | @wake t hpc =>
    exact hs.goes loop rfl rfl rfl rfl (fun _ h => absurd rfl h) (hkept (by rw [hpc]; rfl))
  | notify => exact ⟨hs.called, hs.inside, hs.holder, hs.threadId⟩
  | @lockTimers t hmay hmutex =>
    refine hs.goes loop rfl rfl rfl rfl (fun ht _ => hmay.2 ht) fun h => ?_
    exact Or.inl ⟨Option.some_inj.mp h, Or.inl rfl⟩
  | @unlockTimers t hpc =>
    exact hs.goes loop rfl rfl rfl rfl (fun _ h => absurd rfl h) fun h => absurd h (Option.some_ne_none loop).symm
  | poll hphase hin =>
    exact .polls loop hin rfl hs.threadId (hnot hin)
      fun h => absurd h (hfree hphase rfl hin)
  | store hphase =>
    have hin := hcalls hphase rfl Phase.noConfusion
    exact .polls loop hin rfl (fun t h => (Option.some_inj.mp h).symm)
      (hnot hin) fun h => absurd h (hfree hphase rfl hin)
  | lockQueue hphase hmutex =>
    have hin := hcalls hphase rfl Phase.noConfusion
    exact .polls loop hin rfl hs.threadId (hnot hin) fun _ => rfl
  | swap hphase =>
    have hin := hcalls hphase rfl Phase.noConfusion
    exact .polls loop hin rfl hs.threadId (hnot hin) fun _ => rfl
  | unlockQueue hphase =>
    exact .polls loop (hcalls hphase rfl Phase.noConfusion) rfl hs.threadId (fun _ => rfl)
      fun h => absurd h (Option.some_ne_none loop).symm
  | call hphase hcallbacks hin =>
    exact .polls loop hin rfl hs.threadId (fun _ => by rw [hphase]; rfl) fun h => absurd h (hfree hphase rfl hin)
  | ret hcalled hpc =>
    exact ⟨fun h => absurd h Bool.false_ne_true, fun h => absurd hpc h, hs.holder, hs.threadId⟩
  | @finish p hphase hcallbacks hin =>
    exact .polls loop hin rfl hs.threadId (hnot hin)
      fun h => absurd h (hfree hphase rfl hin)
  | interrupt hphase =>
    have hin := hcalls hphase rfl Phase.noConfusion
    exact .polls loop hin rfl hs.threadId (hnot hin)
      fun h => absurd h (hfree hphase rfl hin)
  | ready hphase hready =>
    exact .polls loop (hcalls hphase rfl Phase.noConfusion) rfl hs.threadId (fun _ => rfl)
      fun h => absurd h (hfree hphase rfl (hcalls hphase rfl Phase.noConfusion))
  | event hphase hin =>
    exact .polls loop hin rfl hs.threadId (fun _ => rfl) fun h => absurd h (hfree hphase rfl hin)
  | finishEvents hphase hin =>
    exact .polls loop hin rfl hs.threadId (hnot hin)
      fun h => absurd h (hfree hphase rfl hin)

/-- **A callback runs without the mutex**, until it takes it in a call of its own. -/
theorem Apart.free {s : State} (hs : s.Apart loop) (hcalled : s.called = true) (hpc : s.pcs loop = .outside) :
    s.deferredMutex ≠ some loop := by
  intro hmutex
  have hcalls := hs.called hcalled
  rcases hs.holder hmutex with h | h
  · rw [hpc] at h
    exact Bool.false_ne_true h
  · cases hphase : s.phase <;> rw [hphase] at h hcalls <;> first
      | exact Bool.false_ne_true h
      | exact Bool.false_ne_true hcalls

/-! ### The wake -/

/-- **The wake of a queue that is not empty**: written, or another thread is about to write it. -/
def Woken (s : State) : Prop :=
  s.phase.blocks = true → s.deferredCallbacks ≠ [] → s.readable = true ∨ ∃ t, t ≠ loop ∧ (s.pcs t).owes = true

/-- In the first pass the loop's thread pushes only where the wake is written. -/
def Wakes (s : State) : Label → Prop
  | .push t => t = loop → s.phase = .running .first → s.readable = true
  | _ => True

theorem woken_init : Woken loop {} := fun h => absurd h Bool.false_ne_true

/-- A thread that is about to write is so until it has written. -/
theorem owes_goto {s : State} {t : ThreadId} {pc : Pc} (hpc : t ≠ loop → (s.pcs t).owes = true → pc.owes = true)
    (h : ∃ u, u ≠ loop ∧ (s.pcs u).owes = true) : ∃ u, u ≠ loop ∧ ((s.goto t pc).pcs u).owes = true := by
  obtain ⟨u, hu, howes⟩ := h
  refine ⟨u, hu, ?_⟩
  rw [goto_pcs]
  split
  · rename_i hut
    exact hpc (hut ▸ hu) (hut ▸ howes)
  · exact howes

/-- A thread that is elsewhere in `Defer` moves. -/
theorem owes_goto_of_not {s : State} {t : ThreadId} {pc pc' : Pc} (hpc : s.pcs t = pc) (hnot : pc.owes = false)
    (h : ∃ u, u ≠ loop ∧ (s.pcs u).owes = true) : ∃ u, u ≠ loop ∧ ((s.goto t pc').pcs u).owes = true :=
  owes_goto loop (fun _ howes => absurd (hnot.symm.trans (hpc ▸ howes)) Bool.false_ne_true) h

theorem Woken.moves {s s' : State} {a : Label} (hs : s.Woken loop) (hordered : s.Ordered) (hapart : s.Apart loop)
    (hwakes : s.Wakes loop a) (h : Moves loop s a s') : s'.Woken loop := by
  intro hblocks hqueue
  cases h with
  | @push t cb hpc =>
    by_cases ht : t = loop
    · -- the loop's thread is in a callback, and so in the first pass
      have hinside : s.pcs loop ≠ .outside := by
        rw [← ht, hpc]
        exact Pc.noConfusion
      have hfirst : s.phase = .running .first := by
        have hblocks' : s.phase.blocks = true := hblocks
        rcases hapart.inside hinside with hidle | hcalled
        · rw [hidle] at hblocks'
          exact absurd hblocks' Bool.false_ne_true
        · have hcalls := hapart.called hcalled
          revert hblocks' hcalls
          cases s.phase with
          | running p => cases p <;> simp [Phase.blocks]
          | dispatching events => simp [Phase.blocks]
          | idle | storing | locking | swapping | unlocking | waiting => simp [Phase.calls]
      exact .inl (hwakes ht hfirst)
    · exact .inr ⟨t, ht, by rw [goto_pcs, if_pos rfl]; rfl⟩
  | @check t hpc =>
    -- another thread sees that it is not the loop's
    refine (hs hblocks hqueue).imp_right fun howes => owes_goto loop (fun ht _ => ?_) howes
    rw [if_neg fun hid => ht (hapart.threadId t hid)]
    rfl
  | @unlock t hpc => exact (hs hblocks hqueue).imp_right fun howes => owes_goto loop (fun _ _ => rfl) howes
  | wake hpc => exact .inl rfl
  | notify => exact .inl rfl
  | defer hmay => exact (hs hblocks hqueue).imp_right (owes_goto_of_not loop hmay.1 rfl)
  | lock hpc hfree => exact (hs hblocks hqueue).imp_right (owes_goto_of_not loop hpc rfl)
  | lockTimers hmay hfree => exact (hs hblocks hqueue).imp_right (owes_goto_of_not loop hmay.1 rfl)
  | unlockTimers hpc => exact (hs hblocks hqueue).imp_right (owes_goto_of_not loop hpc rfl)
  | @swap p hphase =>
    have hempty : s.callbacks = [] := hordered.emptied (by rw [hphase]; rfl)
    exact absurd hempty hqueue
  | @unlockQueue p hphase =>
    cases p with
    | first => exact hs (by rw [hphase]; rfl) hqueue
    | second => exact absurd hblocks Bool.false_ne_true
  | call hphase hcallbacks hin => exact hs hblocks hqueue
  | ret hcalled hpc => exact hs hblocks hqueue
  | @finish p hphase hcallbacks hin =>
    cases p with
    | first => exact hs (by rw [hphase]; rfl) hqueue
    | second => exact absurd hblocks Bool.false_ne_true
  | poll | store | lockQueue | interrupt | ready | event | finishEvents => exact absurd hblocks Bool.false_ne_true

/-! ### Whole runs -/

/-- All that every step keeps. -/
structure Inv (s : State) : Prop where
  ordered : s.Ordered
  apart : s.Apart loop
  woken : s.Woken loop

theorem Inv.step {s : State} (hs : s.Inv loop) (a : Label) (hwakes : s.Wakes loop a) : (s.step loop a).Inv loop :=
  step_preserves loop hs fun _ h =>
    ⟨hs.ordered.moves loop h, hs.apart.moves loop h, hs.woken.moves loop hs.ordered hs.apart hwakes h⟩

theorem inv_run {steps : List Label} (h : Runs.Along (Wakes loop) (State.step loop) {} steps) :
    (Runs.run (State.step loop) {} steps).Inv loop :=
  Runs.run_preserves (fun _ a hs hwakes => hs.step loop a hwakes) ⟨ordered_init, apart_init loop, woken_init loop⟩ h

/-- No other thread is between its push and its write. -/
def Settled (s : State) : Prop := ∀ t, t ≠ loop → (s.pcs t).owes = false

/-- `ran` is the callbacks that were pushed and can be called, each once and in order, but for those to come; and
one runs without the mutex. -/
def OnceInOrder (s : State) : Prop :=
  s.ran <+: s.queued.filter (·.callable) ∧
    (s.called = true → s.pcs loop = .outside → s.deferredMutex ≠ some loop)

/-- Before it blocks, the loop has its wake. -/
def NoLostWakeup (s : State) : Prop :=
  s.phase = .waiting → s.deferredCallbacks ≠ [] → s.Settled loop → s.readable = true

/-- **No lost wakeup**, in every run in which callbacks of the first pass push only where a wake is written; order
and mutex are as they should be. -/
theorem no_lost_wakeup (steps : List Label) (h : Runs.Along (Wakes loop) (State.step loop) {} steps) :
    (Runs.run (State.step loop) {} steps).NoLostWakeup loop ∧ (Runs.run (State.step loop) {} steps).OnceInOrder loop := by
  have hinv := inv_run loop h
  refine ⟨fun hphase hqueue hsettled => ?_, ?_, hinv.apart.free loop⟩
  · rcases hinv.woken (by rw [hphase]; rfl) hqueue with hreadable | ⟨t, ht, howes⟩
    · exact hreadable
    · rw [hsettled t ht] at howes
      exact absurd howes Bool.false_ne_true
  · rw [hinv.ordered.account]
    exact List.prefix_append _ _

/-- Order and mutex are so in every run. -/
theorem once_in_order (steps : List Label) : (Runs.run (State.step loop) {} steps).OnceInOrder loop := by
  have hordered : (Runs.run (State.step loop) {} steps).Ordered :=
    Runs.run_invariant (fun _ _ hs => step_preserves loop hs fun _ h => hs.moves loop h) ordered_init steps
  have hapart : (Runs.run (State.step loop) {} steps).Apart loop :=
    Runs.run_invariant (fun _ _ hs => step_preserves loop hs fun _ h => hs.moves loop h) (apart_init loop) steps
  refine ⟨?_, hapart.free loop⟩
  rw [hordered.account]
  exact List.prefix_append _ _

/-- The thread of a step of `Defer`, or with the timers. -/
def thread : Label → Option ThreadId
  | .defer t _ | .lock t | .push t | .unlock t | .check t | .wake t | .lockTimers t | .unlockTimers t => some t
  | .notify | .poll | .store | .lockQueue | .swap | .unlockQueue | .call | .ret | .finish | .interrupt | .ready _
  | .event | .finishEvents => none

theorem Moves.pcs_eq {s s' : State} {a : Label} {t : ThreadId} (h : Moves loop s a s') (ht : thread a ≠ some t) :
    s'.pcs t = s.pcs t := by
  have hgoto : ∀ {u pc}, some u ≠ some t → (s.goto u pc).pcs t = s.pcs t := fun hu => by
    rw [goto_pcs, if_neg fun he => hu (congrArg some he.symm)]
  cases h with
  | defer | lock | push | unlock | check | wake | lockTimers | unlockTimers => exact hgoto ht
  | notify | poll | store | lockQueue | swap | unlockQueue | call | ret | finish | interrupt | ready | event
  | finishEvents => rfl

/-- A thread that takes no step stays where it is. -/
theorem run_pcs {steps : List Label} {t : ThreadId} (h : ∀ a ∈ steps, thread a ≠ some t) (s : State) :
    (Runs.run (State.step loop) s steps).pcs t = s.pcs t := by
  induction steps generalizing s with
  | nil => rfl
  | cons a steps ih =>
    have hone : (s.step loop a).pcs t = s.pcs t :=
      step_preserves (P := fun s' => s'.pcs t = s.pcs t) loop rfl fun s' hmoves =>
        hmoves.pcs_eq loop (h a List.mem_cons_self)
    rw [Runs.run_cons, ih fun b hb => h b (List.mem_cons_of_mem _ hb), hone]

/-- A poll in which nothing happens. -/
def emptyPoll : List Label :=
  [.poll, .store, .lockQueue, .swap, .unlockQueue, .finish, .ready [], .finishEvents, .lockQueue, .swap, .unlockQueue,
    .finish]

/-- A call of `Defer` by a thread that is the loop's. -/
def deferOnLoop (cb : Callback) : List Label := [.defer 0 cb, .lock 0, .push 0, .unlock 0, .check 0]

/-- The loop's thread defers a callback between two polls, and the callback defers another. -/
def deferTwice : List Label :=
  emptyPoll ++ deferOnLoop ⟨0, true⟩ ++ [.poll, .store, .lockQueue, .swap, .unlockQueue, .call] ++
    deferOnLoop ⟨1, true⟩ ++ [.ret, .finish]

/-- Another thread defers, while the loop waits. -/
def deferElsewhere : List Label :=
  [.poll, .store, .lockQueue, .swap, .unlockQueue, .finish, .defer 1 ⟨0, true⟩, .lock 1, .push 1, .unlock 1, .check 1,
    .wake 1]

theorem no_lost_wakeup_deferElsewhere :
    (Runs.run (step 0) {} deferElsewhere).NoLostWakeup 0 ∧ (Runs.run (step 0) {} deferElsewhere).OnceInOrder 0 :=
  no_lost_wakeup 0 deferElsewhere (by
    refine ⟨trivial, trivial, trivial, trivial, trivial, trivial, trivial, trivial, fun h => ?_, trivial, trivial,
      trivial, trivial⟩
    exact absurd h (by decide))

/-- **A wakeup is lost**: the loop is about to block on a queue that is not empty. -/
theorem wakeup_lost : ¬(Runs.run (step 0) {} deferTwice).NoLostWakeup 0 := by
  intro h
  have hsettled : (Runs.run (step 0) {} deferTwice).Settled 0 := by
    intro t ht
    have hmine : ∀ a ∈ deferTwice, thread a = none ∨ thread a = some 0 := by decide
    have hothers : ∀ a ∈ deferTwice, thread a ≠ some t := by
      intro a ha hthread
      rcases hmine a ha with hnone | hzero
      · rw [hnone] at hthread
        exact absurd hthread (Option.some_ne_none t).symm
      · rw [hzero] at hthread
        exact ht (Option.some.inj hthread).symm
    rw [run_pcs 0 hothers]
    rfl
  exact absurd (h (by decide) (by decide) hsettled) (by decide)

end State

end DbnPipe.Deferred
