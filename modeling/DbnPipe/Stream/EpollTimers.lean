import DbnPipe.Stream.EpollDispatch
import Mathlib.Data.List.Nodup

/-!
# The timers of the event loop

`Schedule` and `HandleTimerExpired` over whole runs: **a timer waits until its callback is called**.

* `touches`, `Spared` — an action reaches the registration of a descriptor, and not that of a timer;
* `Careful` — the callbacks spare the timers; a handle that outlives its descriptor may not, as the kernel gives the
  number to the next timer;
* `Armed` — the timers have descriptors of their own, **each registered with its own handle**;
* `Tracked` — a timer that was scheduled waits, or was called;
* `timers_kept` — over every run.
-/

namespace DbnPipe.Epoll

namespace EpollEventLoop

/-! ### Actions that spare the timers -/

/-- The descriptor whose registration an action removes or changes. -/
def touches (s : EpollEventLoop) : Action → Option ℕ
  | .destroy h | .update h _ _ => (s.handles h).map EpollEventHandle.fd
  | .close fd => some fd
  | .register _ _ _ _ _ _ | .schedule _ _ | .defer _ => none

/-- The descriptor is not that of a timer. -/
def Spared (s : EpollEventLoop) (a : Action) : Prop := ∀ fd, s.touches a = some fd → ∀ e ∈ s.timers, e.fd ≠ fd

/-- Each timer has a descriptor of its own, and the kernel knows its handle. -/
structure Armed (s : EpollEventLoop) : Prop where
  distinct : (s.timers.map TimerEntry.fd).Nodup
  interest : ∀ e ∈ s.timers, s.interest e.fd = some ⟨e.handle, true, false⟩
  handle : ∀ e ∈ s.timers, s.handles e.handle = some { fd := e.fd, onRead := .timer e.fd }

/-- **The callbacks spare the timers.** -/
def Careful (behave : Behaviour) : Prop := ∀ s c, s.Inv → s.Armed →
  Runs.Along Spared act { s with calls := s.calls ++ [c] } (behave s c)

-- A handle that is destroyed after its descriptor is closed takes the registration of a timer with that number.
example : (([.register 3 true false true false false, .close 3, .schedule 3 true, .destroy 0] : List Action).foldl
    act {}).interest 3 = none := rfl

variable {s : EpollEventLoop} {e : TimerEntry} {n : ℕ}

theorem Armed.congr {t : EpollEventLoop} (h : s.Armed) (htimers : t.timers = s.timers)
    (hinterest : ∀ e ∈ s.timers, t.interest e.fd = s.interest e.fd)
    (hhandles : ∀ e ∈ s.timers, t.handles e.handle = s.handles e.handle) : t.Armed where
  distinct := by rw [htimers]; exact h.distinct
  interest e he := by
    rw [htimers] at he
    rw [hinterest e he, h.interest e he]
  handle e he := by
    rw [htimers] at he
    rw [hhandles e he, h.handle e he]

theorem Armed.destroy (h : s.Armed) {id : HandleId} (hspared : s.Spared (.destroy id)) : (s.destroy id).Armed := by
  rw [EpollEventLoop.destroy]
  split
  · exact h
  · rename_i handle hhandle
    have hfd : ∀ e ∈ s.timers, e.fd ≠ handle.fd := hspared handle.fd (by rw [touches, hhandle]; rfl)
    refine h.congr rfl (fun e he => Function.update_of_ne (hfd e he) _ _) fun e he => ?_
    refine Function.update_of_ne (fun hid => ?_) _ _
    have hhandle' := h.handle e he
    rw [hid, hhandle] at hhandle'
    exact hfd e he (congrArg EpollEventHandle.fd (Option.some.inj hhandle')).symm

theorem Armed.register (h : s.Armed) (hs : s.Inv) (handle : EpollEventHandle) (wantRead wantWrite : Bool) :
    (s.register handle wantRead wantWrite).Armed := by
  rw [EpollEventLoop.register]
  split
  · exact h
  · rename_i hfree
    refine h.congr rfl (fun e he => Function.update_of_ne (fun hfd => hfree ?_) _ _)
      fun e he => Function.update_of_ne (fun hid => ?_) _ _
    · rw [← hfd, h.interest e he]
      rfl
    · have hlive := h.handle e he
      rw [hid, hs.fresh s.next (Nat.le_refl _)] at hlive
      exact absurd hlive.symm (Option.some_ne_none _)

theorem Armed.update (h : s.Armed) {id : HandleId} {wantRead wantWrite : Bool}
    (hspared : s.Spared (.update id wantRead wantWrite)) : (s.update id wantRead wantWrite).Armed := by
  rw [EpollEventLoop.update]
  split
  · exact h
  · rename_i handle hhandle
    have hfd : ∀ e ∈ s.timers, e.fd ≠ handle.fd := hspared handle.fd (by rw [touches, hhandle]; rfl)
    split
    · exact h.congr rfl (fun e he => Function.update_of_ne (hfd e he) _ _) fun _ _ => rfl
    · exact h

theorem Armed.schedule (h : s.Armed) (hs : s.Inv) (fd : ℕ) (callback : Bool) : (s.schedule fd callback).Armed := by
  rw [EpollEventLoop.schedule]
  by_cases hfree : (s.interest fd).isSome = true
  · rw [if_pos hfree]
    exact h
  · rw [if_neg hfree]
    have hregister : s.register { fd := fd, onRead := .timer fd } true false =
        { s with
          handles := Function.update s.handles s.next (some { fd := fd, onRead := .timer fd })
          interest := Function.update s.interest fd (some ⟨s.next, true, false⟩)
          next := s.next + 1 } := if_neg hfree
    have hold : (s.register { fd := fd, onRead := .timer fd } true false).Armed := h.register hs _ _ _
    rw [hregister] at hold
    dsimp only
    rw [hregister]
    refine ⟨?_, fun e he => ?_, fun e he => ?_⟩
    · rw [List.map_append, List.map_singleton]
      refine List.nodup_append.mpr ⟨h.distinct, List.nodup_singleton fd, ?_⟩
      intro a ha b hb hab
      obtain ⟨e, he, hfd⟩ := List.mem_map.mp ha
      have hafd : a = fd := hab.trans (List.mem_singleton.mp hb)
      refine hfree ?_
      rw [← hafd, ← hfd, h.interest e he]
      rfl
    · rcases List.mem_append.mp he with hin | hnew
      · exact hold.interest e hin
      · rw [List.mem_singleton.mp hnew]
        exact Function.update_self _ _ _
    · rcases List.mem_append.mp he with hin | hnew
      · exact hold.handle e hin
      · rw [List.mem_singleton.mp hnew]
        exact Function.update_self _ _ _

theorem Armed.act (h : s.Armed) (hs : s.Inv) {a : Action} (hspared : s.Spared a) : (s.act a).Armed := by
  cases a with
  | destroy id => exact h.destroy hspared
  | close fd => exact h.congr rfl (fun e he => Function.update_of_ne (hspared fd rfl e he) _ _) fun _ _ => rfl
  | register fd wantRead wantWrite onRead onWrite onError => exact h.register hs _ _ _
  | update id wantRead wantWrite => exact h.update hspared
  | schedule fd callback => exact h.schedule hs fd callback
  | defer k => exact h.congr rfl (fun _ _ => rfl) fun _ _ => rfl

/-! ### What an action leaves -/

/-- No action takes a timer away, or calls a callback. -/
structure Leaves (s t : EpollEventLoop) : Prop where
  timers : ∀ e ∈ s.timers, e ∈ t.timers
  calls : t.calls = s.calls

theorem leaves_register (s : EpollEventLoop) (handle : EpollEventHandle) (wantRead wantWrite : Bool) :
    Leaves s (s.register handle wantRead wantWrite) := by
  rw [register]
  split <;> exact ⟨fun _ he => he, rfl⟩

theorem leaves_act (s : EpollEventLoop) (a : Action) : Leaves s (s.act a) := by
  cases a with
  | destroy id =>
    rw [act, destroy]
    split <;> exact ⟨fun _ he => he, rfl⟩
  | close fd => exact ⟨fun _ he => he, rfl⟩
  | register fd wantRead wantWrite onRead onWrite onError => exact leaves_register s _ wantRead wantWrite
  | update id wantRead wantWrite =>
    rw [act, update]
    split
    · exact ⟨fun _ he => he, rfl⟩
    · split <;> exact ⟨fun _ he => he, rfl⟩
  | schedule fd callback =>
    rw [act, schedule]
    split
    · exact ⟨fun _ he => he, rfl⟩
    · have hregister := leaves_register s { fd := fd, onRead := .timer fd } true false
      exact ⟨fun e he => List.mem_append_left _ (hregister.timers e he), hregister.calls⟩
  | defer k => exact ⟨fun _ he => he, rfl⟩

/-! ### A timer on its way -/

/-- **The timer waits, or was called** since there were `n` calls for its descriptor. -/
structure Tracked (e : TimerEntry) (n : ℕ) (s : EpollEventLoop) : Prop where
  inv : s.Inv
  armed : s.Armed
  grown : n ≤ s.calls.count (.timer e.fd)
  kept : e ∈ s.timers ∨ (e.callback = true → n < s.calls.count (.timer e.fd))

theorem Tracked.act (h : Tracked e n s) {a : Action} (hspared : s.Spared a) : Tracked e n (s.act a) := by
  obtain ⟨htimers, hcalls⟩ := leaves_act s a
  refine ⟨h.inv.act a, h.armed.act h.inv hspared, ?_, ?_⟩
  · rw [hcalls]
    exact h.grown
  · rw [hcalls]
    exact h.kept.imp_left (htimers e)

theorem Tracked.acts (h : Tracked e n s) {actions : List Action}
    (hok : Runs.Along Spared EpollEventLoop.act s actions) : Tracked e n (actions.foldl EpollEventLoop.act s) := by
  have hact : ∀ t a, Tracked e n t → Spared t a → Tracked e n (t.act a) := fun _ _ ht hspared => ht.act hspared
  exact Runs.run_preserves hact h hok

theorem Tracked.note (h : Tracked e n s) (c : Call) : Tracked e n { s with calls := s.calls ++ [c] } := by
  have hcount : s.calls.count (.timer e.fd) ≤ (s.calls ++ [c]).count (.timer e.fd) := by
    rw [List.count_append]
    exact Nat.le_add_right _ _
  refine ⟨h.inv.congr rfl rfl rfl, h.armed.congr rfl (fun _ _ => rfl) fun _ _ => rfl, Nat.le_trans h.grown hcount, ?_⟩
  exact h.kept.imp_right fun hcalled hcallback => Nat.lt_of_lt_of_le (hcalled hcallback) hcount

theorem Tracked.access (h : Tracked e n s) (id : HandleId) : Tracked e n (s.access id) :=
  ⟨h.inv.congr rfl rfl rfl, h.armed.congr rfl (fun _ _ => rfl) fun _ _ => rfl, h.grown, h.kept⟩

/-- Two timers with one descriptor are one. -/
theorem Armed.eq_of_fd (h : s.Armed) {e' : TimerEntry} (he : e ∈ s.timers) (he' : e' ∈ s.timers) (hfd : e.fd = e'.fd) :
    e = e' := List.inj_on_of_nodup_map h.distinct he he' hfd

/-- What `erase` leaves of the timers. -/
theorem mem_eraseP_fd {l : List TimerEntry} (hl : (l.map TimerEntry.fd).Nodup) {fd : ℕ} :
    e ∈ l.eraseP (fun e => e.fd = fd) ↔ e ∈ l ∧ e.fd ≠ fd := by
  induction l with
  | nil => simp
  | cons a l ih =>
    rw [List.map_cons, List.nodup_cons] at hl
    by_cases hfd : a.fd = fd
    · rw [List.eraseP_cons_of_pos (by simp [hfd])]
      refine ⟨fun he => ⟨List.mem_cons_of_mem a he, fun heq => hl.1 ?_⟩, fun ⟨he, hne⟩ => ?_⟩
      · exact List.mem_map.mpr ⟨e, he, heq.trans hfd.symm⟩
      · rcases List.mem_cons.mp he with rfl | hin
        · exact absurd hfd hne
        · exact hin
    · rw [List.eraseP_cons_of_neg (by simp [hfd]), List.mem_cons, List.mem_cons, ih hl.2]
      constructor
      · rintro (rfl | ⟨hin, hne⟩)
        · exact ⟨.inl rfl, hfd⟩
        · exact ⟨.inr hin, hne⟩
      · rintro ⟨rfl | hin, hne⟩
        · exact .inl rfl
        · exact .inr ⟨hin, hne⟩

theorem destroy_eq {id : HandleId} {handle : EpollEventHandle} (h : s.handles id = some handle) :
    s.destroy id = { s with
      handles := Function.update s.handles id none
      interest := Function.update s.interest handle.fd none } := by
  rw [destroy, h]

/-- The entry of a timer goes, and no other. -/
theorem mem_eraseTimer (h : s.Armed) {entry : TimerEntry} :
    e ∈ (s.eraseTimer entry.fd entry).timers ↔ e ∈ s.timers ∧ e.fd ≠ entry.fd := by
  rw [← mem_eraseP_fd h.distinct, eraseTimer, destroy]
  split <;> rfl

theorem armed_eraseTimer (h : s.Armed) {entry : TimerEntry} (hentry : entry ∈ s.timers) :
    (s.eraseTimer entry.fd entry).Armed := by
  have hothers : ∀ e ∈ s.timers, e.fd ≠ entry.fd → e.handle ≠ entry.handle := by
    intro e he hne hhandle
    have hentry' := h.handle entry hentry
    rw [← hhandle, h.handle e he] at hentry'
    exact hne (congrArg EpollEventHandle.fd (Option.some.inj hentry'))
  have herased : ∀ e ∈ s.timers.eraseP (fun e => e.fd = entry.fd), e ∈ s.timers ∧ e.fd ≠ entry.fd :=
    fun e he => (mem_eraseP_fd h.distinct).mp he
  have hdestroy : s.eraseTimer entry.fd entry =
      { s with
        handles := Function.update s.handles entry.handle none
        interest := Function.update (Function.update s.interest entry.fd none) entry.fd none
        timers := s.timers.eraseP fun e => e.fd = entry.fd } :=
    destroy_eq (s := { s.close entry.fd with timers := s.timers.eraseP fun e => e.fd = entry.fd })
      (h.handle entry hentry)
  rw [hdestroy]
  refine ⟨?_, fun e he => ?_, fun e he => ?_⟩
  · exact h.distinct.sublist (List.eraseP_sublist.map _)
  · obtain ⟨hin, hne⟩ := herased e he
    exact (Function.update_of_ne hne _ _).trans ((Function.update_of_ne hne _ _).trans (h.interest e hin))
  · obtain ⟨hin, hne⟩ := herased e he
    exact (Function.update_of_ne (hothers e hin hne) _ _).trans (h.handle e hin)

/-- What `find_if` finds. -/
theorem of_find_timer {fd : ℕ} (hfind : s.timers.find? (fun e => e.fd = fd) = some e) : e ∈ s.timers ∧ e.fd = fd :=
  ⟨List.mem_of_find?_eq_some hfind,
    of_decide_eq_true (@List.find?_some _ (fun t : TimerEntry => decide (t.fd = fd)) _ _ hfind)⟩

theorem calls_eraseTimer (s : EpollEventLoop) (fd : ℕ) (entry : TimerEntry) :
    (s.eraseTimer fd entry).calls = s.calls := (leaves_act _ (.destroy entry.handle)).calls

section Uses

variable {behave : Behaviour} (hcareful : Careful behave)

include hcareful

theorem Tracked.call (h : Tracked e n s) (c : Call) : Tracked e n (s.call behave c) :=
  (h.note c).acts (hcareful s c h.inv h.armed)

/-- **An expired timer** goes; its callback is called. -/
theorem Tracked.handleTimerExpired (h : Tracked e n s) (fd : ℕ) : Tracked e n (s.handleTimerExpired behave fd) := by
  rw [EpollEventLoop.handleTimerExpired]
  split
  · exact h
  · rename_i entry hfind
    obtain ⟨hentry, rfl⟩ := of_find_timer hfind
    have hinv : (s.eraseTimer entry.fd entry).Inv := stable_inv.eraseTimer h.inv entry.fd entry
    have harmed : (s.eraseTimer entry.fd entry).Armed := armed_eraseTimer h.armed hentry
    have hcalls := calls_eraseTimer s entry.fd entry
    dsimp only
    by_cases heq : e.fd = entry.fd ∧ e ∈ s.timers
    · -- the timer itself
      obtain rfl := h.armed.eq_of_fd heq.2 hentry heq.1
      split
      · have hcount : n < List.count (Call.timer e.fd) ((s.eraseTimer e.fd e).calls ++ [Call.timer e.fd]) := by
          rw [hcalls, List.count_append, List.count_singleton_self]
          exact Nat.lt_succ_of_le h.grown
        have hnoted : Tracked e n { s.eraseTimer e.fd e with
            calls := (s.eraseTimer e.fd e).calls ++ [Call.timer e.fd] } :=
          ⟨hinv.congr rfl rfl rfl, harmed.congr rfl (fun _ _ => rfl) fun _ _ => rfl, Nat.le_of_lt hcount,
            .inr fun _ => hcount⟩
        exact hnoted.acts (hcareful _ _ hinv harmed)
      · rename_i hcallback
        exact ⟨hinv, harmed, by rw [hcalls]; exact h.grown, .inr fun htrue => absurd htrue hcallback⟩
    · -- another timer
      have herased : Tracked e n (s.eraseTimer entry.fd entry) := by
        refine ⟨hinv, harmed, by rw [hcalls]; exact h.grown, ?_⟩
        rw [mem_eraseTimer h.armed, hcalls]
        exact h.kept.imp_left fun hin => ⟨hin, fun hfd => heq ⟨hfd, hin⟩⟩
      split
      · exact herased.call hcareful _
      · exact herased

theorem Tracked.onError (h : Tracked e n s) (id : HandleId) : Tracked e n (s.onError behave id) := by
  rw [EpollEventLoop.onError]
  split
  · exact h.access id
  · split
    · exact (h.access id).call hcareful _
    · exact h.access id

theorem Tracked.onReadable (h : Tracked e n s) (id : HandleId) : Tracked e n (s.onReadable behave id) := by
  rw [EpollEventLoop.onReadable]
  split
  · exact h.access id
  · split
    · exact h.access id
    · exact (h.access id).call hcareful _
    · exact (h.access id).handleTimerExpired hcareful _

theorem Tracked.onWritable (h : Tracked e n s) (id : HandleId) : Tracked e n (s.onWritable behave id) := by
  rw [EpollEventLoop.onWritable]
  split
  · exact h.access id
  · split
    · exact (h.access id).call hcareful _
    · exact h.access id

theorem Tracked.use (h : Tracked e n s) (u : Use) : Tracked e n (s.use behave u) := by
  cases u with
  | error id => exact h.onError hcareful id
  | read id => exact h.onReadable hcareful id
  | write id => exact h.onWritable hcareful id

theorem Tracked.dispatch (h : Tracked e n s) (events : List EpollEvent) : Tracked e n (s.dispatch behave events) := by
  rw [dispatch_eq]
  exact List.foldlRecOn (uses events) (EpollEventLoop.use behave) h fun _ ht u _ => ht.use hcareful u

theorem Tracked.processDeferredCallbacks (h : Tracked e n s) : Tracked e n (s.processDeferredCallbacks behave) := by
  have hswapped : Tracked e n { s with deferredCallbacks := [] } :=
    ⟨h.inv.congr rfl rfl rfl, h.armed.congr rfl (fun _ _ => rfl) fun _ _ => rfl, h.grown, h.kept⟩
  exact List.foldlRecOn s.deferredCallbacks _ hswapped fun _ ht _ _ => ht.call hcareful _

/-- The program spares the timers too, between the polls. -/
def SparedAt (s : EpollEventLoop) : Step → Prop
  | .act a => s.Spared a
  | .poll _ => True

theorem Tracked.step (h : Tracked e n s) {a : Step} (hspared : s.SparedAt a) : Tracked e n (s.step behave a) := by
  cases a with
  | act a => exact h.act hspared
  | poll events =>
    have hdeferred := h.processDeferredCallbacks hcareful
    cases events with
    | none => exact hdeferred
    | some events => exact (hdeferred.dispatch hcareful events).processDeferredCallbacks hcareful

theorem Tracked.run (h : Tracked e n s) {steps : List Step}
    (hok : Runs.Along SparedAt (EpollEventLoop.step behave) s steps) :
    Tracked e n (Runs.run (EpollEventLoop.step behave) s steps) := by
  have hstep : ∀ t a, Tracked e n t → SparedAt t a → Tracked e n (t.step behave a) :=
    fun _ _ ht hspared => ht.step hcareful hspared
  exact Runs.run_preserves hstep h hok

end Uses

theorem armed_init : Armed {} := ⟨List.nodup_nil, fun _ he => absurd he List.not_mem_nil,
  fun _ he => absurd he List.not_mem_nil⟩

/-- **The event of a timer is for its own entry**: that entry goes, and its callback is called. -/
theorem Armed.onReadable (h : s.Armed) (he : e ∈ s.timers) (behave : Behaviour) :
    s.onReadable behave e.handle =
      if e.callback then ((s.access e.handle).eraseTimer e.fd e).call behave (.timer e.fd)
      else (s.access e.handle).eraseTimer e.fd e := by
  have hfind : (s.access e.handle).timers.find? (fun e' => e'.fd = e.fd) = some e := by
    show s.timers.find? (fun e' => e'.fd = e.fd) = some e
    cases hfound : s.timers.find? (fun e' => e'.fd = e.fd) with
    | none => exact absurd (decide_eq_true rfl) (List.find?_eq_none.mp hfound e he)
    | some e' =>
      obtain ⟨he', hfd⟩ := of_find_timer hfound
      rw [h.eq_of_fd he' he hfd]
  rw [EpollEventLoop.onReadable, h.handle e he]
  dsimp only
  rw [EpollEventLoop.handleTimerExpired, hfind]

/-- **A timer that is scheduled waits.** -/
theorem mem_schedule {fd : ℕ} (hfree : s.interest fd = none) (callback : Bool) :
    ({ fd, handle := s.next, callback } : TimerEntry) ∈ (s.act (.schedule fd callback)).timers := by
  have hnone : ¬(s.interest fd).isSome = true := by
    rw [hfree]
    exact Bool.false_ne_true
  rw [EpollEventLoop.act, EpollEventLoop.schedule, if_neg hnone]
  exact List.mem_append_right _ List.mem_cons_self

/-- What holds of the timers after the steps, and after more of them. -/
structure TimersKept (behave : Behaviour) (s : EpollEventLoop) (more : List Step) : Prop where
  armed : s.Armed
  scheduled : ∀ fd callback, s.interest fd = none →
    ({ fd, handle := s.next, callback } : TimerEntry) ∈ (s.act (.schedule fd callback)).timers
  expires : ∀ e ∈ s.timers, s.onReadable behave e.handle =
    if e.callback then ((s.access e.handle).eraseTimer e.fd e).call behave (.timer e.fd)
    else (s.access e.handle).eraseTimer e.fd e
  erased : ∀ e ∈ s.timers, ∀ e', e' ∈ ((s.access e.handle).eraseTimer e.fd e).timers ↔ e' ∈ s.timers ∧ e' ≠ e
  waits : ∀ e ∈ s.timers, e.callback = true → e ∈ (Runs.run (step behave) s more).timers ∨
    s.calls.count (.timer e.fd) < (Runs.run (step behave) s more).calls.count (.timer e.fd)

/-- **Timers**: in every run in which nobody takes the descriptor of a timer for his own, a timer that is scheduled
waits, registered with its own handle, until its event calls its callback, and no other. -/
theorem timers_kept (behave : Behaviour) (hcareful : Careful behave) (steps more : List Step)
    (hok : Runs.Along SparedAt (step behave) {} (steps ++ more)) :
    TimersKept behave (Runs.run (step behave) {} steps) more := by
  obtain ⟨hfirst, hrest⟩ := (Runs.along_append _ _ _ steps more).mp hok
  have hempty : Tracked ⟨0, false, 0⟩ 0 {} :=
    ⟨inv_init, armed_init, Nat.zero_le _, .inr fun htrue => absurd htrue Bool.false_ne_true⟩
  have hstart := hempty.run hcareful hfirst
  refine ⟨hstart.armed, fun _ callback hfree => mem_schedule hfree callback,
    fun e he => hstart.armed.onReadable he behave, fun e he e' => ?_, fun e he hcallback => ?_⟩
  · rw [mem_eraseTimer (hstart.access e.handle).armed]
    refine and_congr_right fun he' => not_congr ⟨hstart.armed.eq_of_fd he' he, fun heq => heq ▸ rfl⟩
  · have htracked : Tracked e _ (Runs.run (step behave) {} steps) :=
      ⟨hstart.inv, hstart.armed, Nat.le_refl _, .inl he⟩
    exact (htracked.run hcareful hrest).kept.imp_right (· hcallback)

/-- A client that tries again: the callback of its timer schedules the next one. -/
def retrying : Behaviour := fun _ c => if c = .timer 5 then [.schedule 5 true] else []

/-- A timer, and its event. -/
def oneTimer : List Step := [.act (.schedule 5 true), .poll (some [⟨some 0, { readable := true }⟩])]

theorem spared_schedule (s : EpollEventLoop) (fd : ℕ) (callback : Bool) : s.Spared (.schedule fd callback) :=
  fun fd' hfd => absurd hfd (Option.some_ne_none fd').symm

theorem careful_retrying : Careful retrying := by
  intro s c _ _
  rw [retrying]
  split
  · exact ⟨spared_schedule _ 5 true, trivial⟩
  · trivial

theorem timers_kept_retrying : TimersKept retrying (Runs.run (step retrying) {} oneTimer) oneTimer.tail :=
  timers_kept retrying careful_retrying oneTimer oneTimer.tail
    ⟨spared_schedule _ 5 true, trivial, trivial, trivial⟩

end EpollEventLoop

end DbnPipe.Epoll
