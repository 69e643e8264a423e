import DbnPipe.Stream.EpollEventLoop

/-!
# Which handles a batch of events touches

The pointers of a batch are those of handles that exist as `epoll_wait` returns.  A callback may destroy handles,
and nothing takes their pointers out of the batch.

* `Inv` — the kernel knows **existing handles only**: the destructor takes care of that;
* `Gone` — a destroyed handle stays destroyed: no other handle has its pointer;
* `Use`, `uses` — the uses of handles in a batch, one after the other;
* `Spares` — **no callback destroys a handle that a later use of the batch needs**;
* `live_iff_spares` — over every run, all uses are of existing handles exactly if the batches are so.
-/

namespace DbnPipe.Epoll

namespace EpollEventLoop

/-! ### The kernel's interest list -/

/-- **The kernel points to existing handles**, each registered for its own descriptor. -/
structure Inv (s : EpollEventLoop) : Prop where
  fresh : ∀ h, s.next ≤ h → s.handles h = none
  interest : ∀ fd r, s.interest fd = some r → ∃ handle, s.handles r.handle = some handle ∧ handle.fd = fd

theorem Inv.destroy {s : EpollEventLoop} (h : s.Inv) (id : HandleId) : (s.destroy id).Inv := by
  rw [EpollEventLoop.destroy]
  split
  · exact h
  · rename_i handle hhandle
    constructor
    · intro id' hle
      show Function.update s.handles id none id' = none
      by_cases hid : id' = id
      · rw [hid, Function.update_self]
      · rw [Function.update_of_ne hid, h.fresh id' hle]
    · intro fd r hr
      have hfd : fd ≠ handle.fd := by
        rintro rfl
        exact absurd ((Function.update_self _ _ _).symm.trans hr) (Option.some_ne_none r).symm
      have hold : s.interest fd = some r := (Function.update_of_ne hfd _ _).symm.trans hr
      obtain ⟨other, hother, rfl⟩ := h.interest fd r hold
      have hid : r.handle ≠ id := by
        intro hid
        rw [hid, hhandle] at hother
        exact hfd (congrArg EpollEventHandle.fd (Option.some.inj hother).symm)
      exact ⟨other, (Function.update_of_ne hid _ _).trans hother, rfl⟩

theorem Inv.close {s : EpollEventLoop} (h : s.Inv) (fd : ℕ) : (s.close fd).Inv where
  fresh := h.fresh
  interest fd' r hr := by
    have hfd : fd' ≠ fd := by
      rintro rfl
      exact absurd ((Function.update_self _ _ _).symm.trans hr) (Option.some_ne_none r).symm
    exact h.interest fd' r ((Function.update_of_ne hfd _ _).symm.trans hr)

theorem Inv.register {s : EpollEventLoop} (h : s.Inv) (handle : EpollEventHandle) (wantRead wantWrite : Bool) :
    (s.register handle wantRead wantWrite).Inv := by
  rw [EpollEventLoop.register]
  split
  · exact h
  · constructor
    · intro id hle
      have hid : id ≠ s.next := Nat.ne_of_gt hle
      exact (Function.update_of_ne hid _ _).trans (h.fresh id (Nat.le_of_succ_le hle))
    · intro fd r hr
      show ∃ handle', Function.update s.handles s.next (some handle) r.handle = some handle' ∧ handle'.fd = fd
      by_cases hfd : fd = handle.fd
      · subst hfd
        have hnew : Function.update s.interest handle.fd (some ⟨s.next, wantRead, wantWrite⟩) handle.fd = some r := hr
        rw [Function.update_self] at hnew
        obtain rfl := Option.some.inj hnew
        exact ⟨handle, Function.update_self _ _ _, rfl⟩
      · obtain ⟨other, hother, rfl⟩ := h.interest fd r ((Function.update_of_ne hfd _ _).symm.trans hr)
        have hid : r.handle ≠ s.next := by
          intro hid
          rw [hid, h.fresh _ (Nat.le_refl _)] at hother
          exact absurd hother (Option.some_ne_none other).symm
        exact ⟨other, (Function.update_of_ne hid _ _).trans hother, rfl⟩

theorem Inv.update {s : EpollEventLoop} (h : s.Inv) (id : HandleId) (wantRead wantWrite : Bool) :
    (s.update id wantRead wantWrite).Inv := by
  rw [EpollEventLoop.update]
  split
  · exact h
  · rename_i handle hhandle
    split
    · refine ⟨h.fresh, fun fd r hr => ?_⟩
      by_cases hfd : fd = handle.fd
      · subst hfd
        have hnew : Function.update s.interest handle.fd (some ⟨id, wantRead, wantWrite⟩) handle.fd = some r := hr
        rw [Function.update_self] at hnew
        obtain rfl := Option.some.inj hnew
        exact ⟨handle, hhandle, rfl⟩
      · exact h.interest fd r ((Function.update_of_ne hfd _ _).symm.trans hr)
    · exact h

/-- The parts that `Inv` is about. -/
theorem Inv.congr {s t : EpollEventLoop} (h : s.Inv) (hhandles : t.handles = s.handles)
    (hinterest : t.interest = s.interest) (hnext : t.next = s.next) : t.Inv where
  fresh := by rw [hhandles, hnext]; exact h.fresh
  interest := by rw [hhandles, hinterest]; exact h.interest

theorem Inv.schedule {s : EpollEventLoop} (h : s.Inv) (fd : ℕ) (callback : Bool) : (s.schedule fd callback).Inv := by
  rw [EpollEventLoop.schedule]
  split
  · exact h
  · exact (h.register { fd := fd, onRead := .timer fd } true false).congr rfl rfl rfl

theorem Inv.act {s : EpollEventLoop} (h : s.Inv) (a : Action) : (s.act a).Inv := by
  cases a with
  | destroy id => exact h.destroy id
  | close fd => exact h.close fd
  | register fd wantRead wantWrite onRead onWrite onError => exact h.register _ wantRead wantWrite
  | update id wantRead wantWrite => exact h.update id wantRead wantWrite
  | schedule fd callback => exact h.schedule fd callback
  | defer n => exact h.congr rfl rfl rfl

/-! ### Destroyed handles -/

/-- The handle has been destroyed. -/
def Gone (id : HandleId) (s : EpollEventLoop) : Prop := s.handles id = none ∧ id < s.next

theorem Gone.destroy {s : EpollEventLoop} {id : HandleId} (h : s.Gone id) (id' : HandleId) :
    (s.destroy id').Gone id := by
  rw [EpollEventLoop.destroy]
  split
  · exact h
  · refine ⟨?_, h.2⟩
    show Function.update s.handles id' none id = none
    by_cases hid : id = id'
    · rw [hid, Function.update_self]
    · rw [Function.update_of_ne hid, h.1]

theorem Gone.register {s : EpollEventLoop} {id : HandleId} (h : s.Gone id) (handle : EpollEventHandle)
    (wantRead wantWrite : Bool) : (s.register handle wantRead wantWrite).Gone id := by
  rw [EpollEventLoop.register]
  split
  · exact h
  · exact ⟨(Function.update_of_ne (Nat.ne_of_lt h.2) _ _).trans h.1, Nat.lt_succ_of_lt h.2⟩

theorem Gone.act {s : EpollEventLoop} {id : HandleId} (h : s.Gone id) (a : Action) : (s.act a).Gone id := by
  cases a with
  | destroy id' => exact h.destroy id'
  | close fd => exact h
  | register fd wantRead wantWrite onRead onWrite onError => exact h.register _ wantRead wantWrite
  | update id' wantRead wantWrite =>
    show (s.update id' wantRead wantWrite).Gone id
    rw [EpollEventLoop.update]
    split
    · exact h
    · split <;> exact h
  | schedule fd callback =>
    show (s.schedule fd callback).Gone id
    rw [EpollEventLoop.schedule]
    split
    · exact h
    · exact h.register { fd := fd, onRead := .timer fd } true false
  | defer n => exact h

theorem next_register (s : EpollEventLoop) (handle : EpollEventHandle) (wantRead wantWrite : Bool) :
    s.next ≤ (s.register handle wantRead wantWrite).next := by
  rw [EpollEventLoop.register]
  split
  · exact Nat.le_refl _
  · exact Nat.le_succ _

theorem next_act (s : EpollEventLoop) (a : Action) : s.next ≤ (s.act a).next := by
  cases a with
  | destroy id =>
    show s.next ≤ (s.destroy id).next
    rw [EpollEventLoop.destroy]
    split <;> exact Nat.le_refl _
  | close fd => exact Nat.le_refl _
  | register fd wantRead wantWrite onRead onWrite onError => exact next_register s _ wantRead wantWrite
  | update id wantRead wantWrite =>
    show s.next ≤ (s.update id wantRead wantWrite).next
    rw [EpollEventLoop.update]
    split
    · exact Nat.le_refl _
    · split <;> exact Nat.le_refl _
  | schedule fd callback =>
    show s.next ≤ (s.schedule fd callback).next
    rw [EpollEventLoop.schedule]
    split
    · exact Nat.le_refl _
    · exact next_register s { fd := fd, onRead := .timer fd } true false
  | defer n => exact Nat.le_refl _

theorem Inv.lt_next {s : EpollEventLoop} (h : s.Inv) {id : HandleId} (hlive : (s.handles id).isSome = true) :
    id < s.next := by
  by_contra hle
  rw [h.fresh id (Nat.le_of_not_lt hle)] at hlive
  exact absurd hlive Bool.false_ne_true

/-! ### What every use keeps -/

/-- What every action and every bookkeeping keeps, every callback and every use keeps. -/
structure Stable (P : EpollEventLoop → Prop) : Prop where
  act : ∀ s a, P s → P (s.act a)
  congr : ∀ s t, t.handles = s.handles → t.interest = s.interest → t.next = s.next → P s → P t

theorem stable_inv : Stable Inv where
  act _ a h := h.act a
  congr _ _ hhandles hinterest hnext h := h.congr hhandles hinterest hnext

theorem stable_gone (id : HandleId) : Stable (Gone id) where
  act _ a h := h.act a
  congr _ _ hhandles _ hnext h := ⟨(congrFun hhandles id).trans h.1, hnext ▸ h.2⟩

/-- Pointers once given out stay given out. -/
theorem stable_lt_next (id : HandleId) : Stable fun s => id < s.next where
  act s a h := Nat.lt_of_lt_of_le h (next_act s a)
  congr _ _ _ _ hnext h := hnext ▸ h

section Stable

variable {P : EpollEventLoop → Prop} (hP : Stable P) (behave : Behaviour)

include hP

theorem Stable.call {s : EpollEventLoop} (h : P s) (c : Call) : P (s.call behave c) := by
  have hnoted : P { s with calls := s.calls ++ [c] } := hP.congr s _ rfl rfl rfl h
  exact List.foldlRecOn (behave s c) EpollEventLoop.act hnoted fun t ht a _ => hP.act t a ht

theorem Stable.access {s : EpollEventLoop} (h : P s) (id : HandleId) : P (s.access id) := hP.congr s _ rfl rfl rfl h

omit behave in
theorem Stable.eraseTimer {s : EpollEventLoop} (h : P s) (fd : ℕ) (entry : TimerEntry) : P (s.eraseTimer fd entry) := by
  have hclosed : P (s.close fd) := hP.act s (.close fd) h
  have herased : P { s.close fd with timers := s.timers.eraseP fun e => e.fd = fd } :=
    hP.congr (s.close fd) _ rfl rfl rfl hclosed
  exact hP.act _ (.destroy entry.handle) herased

theorem Stable.handleTimerExpired {s : EpollEventLoop} (h : P s) (fd : ℕ) : P (s.handleTimerExpired behave fd) := by
  rw [EpollEventLoop.handleTimerExpired]
  split
  · exact h
  · rename_i entry _
    have herased := hP.eraseTimer h fd entry
    dsimp only
    split
    · exact hP.call behave herased _
    · exact herased

theorem Stable.onError {s : EpollEventLoop} (h : P s) (id : HandleId) : P (s.onError behave id) := by
  rw [EpollEventLoop.onError]
  split
  · exact hP.access h id
  · split
    · exact hP.call behave (hP.access h id) _
    · exact hP.access h id

theorem Stable.onReadable {s : EpollEventLoop} (h : P s) (id : HandleId) : P (s.onReadable behave id) := by
  rw [EpollEventLoop.onReadable]
  split
  · exact hP.access h id
  · split
    · exact hP.access h id
    · exact hP.call behave (hP.access h id) _
    · exact hP.handleTimerExpired behave (hP.access h id) _

theorem Stable.onWritable {s : EpollEventLoop} (h : P s) (id : HandleId) : P (s.onWritable behave id) := by
  rw [EpollEventLoop.onWritable]
  split
  · exact hP.access h id
  · split
    · exact hP.call behave (hP.access h id) _
    · exact hP.access h id

theorem Stable.processDeferredCallbacks {s : EpollEventLoop} (h : P s) : P (s.processDeferredCallbacks behave) := by
  have hswapped : P { s with deferredCallbacks := [] } := hP.congr s _ rfl rfl rfl h
  exact List.foldlRecOn s.deferredCallbacks _ hswapped fun _ ht _ _ => hP.call behave ht _

end Stable

/-! ### The uses of a batch -/

/-- A use that `HandleEvents` makes of a handle. -/
inductive Use where
  | error (h : HandleId)
  | read (h : HandleId)
  | write (h : HandleId)
deriving DecidableEq, Repr

/-- The handle. -/
def Use.handle : Use → HandleId
  | .error h | .read h | .write h => h

/-- The uses for an event, in order. -/
def eventUses (e : EpollEvent) : List Use :=
  match e.handle with
  | none => []
  | some h =>
    if e.bits.failed then [.error h]
    else (if e.bits.readable then [.read h] else []) ++ (if e.bits.writable then [.write h] else [])

/-- The uses for a batch. -/
def uses (events : List EpollEvent) : List Use := events.flatMap eventUses

section Uses

variable (behave : Behaviour)

/-- A use. -/
def use (s : EpollEventLoop) : Use → EpollEventLoop
  | .error h => s.onError behave h
  | .read h => s.onReadable behave h
  | .write h => s.onWritable behave h

/-- **A batch is its uses**, one after the other. -/
theorem dispatch_eq (events : List EpollEvent) (s : EpollEventLoop) :
    s.dispatch behave events = (uses events).foldl (use behave) s := by
  induction events generalizing s with
  | nil => rfl
  | cons e events ih =>
    rw [uses, List.flatMap_cons, List.foldl_append]
    refine (ih _).trans (congrArg (List.foldl (use behave) · _) ?_)
    obtain ⟨handle, bits⟩ := e
    cases handle with
    | none => rfl
    | some h =>
      show s.handleEvents behave h bits = _
      rw [handleEvents, eventUses]
      dsimp only
      cases bits.failed with
      | true => rfl
      | false => cases bits.readable <;> cases bits.writable <;> rfl

theorem Stable.use {P : EpollEventLoop → Prop} (hP : Stable P) {s : EpollEventLoop} (h : P s) (u : Use) :
    P (s.use behave u) := by
  cases u with
  | error id => exact hP.onError behave h id
  | read id => exact hP.onReadable behave h id
  | write id => exact hP.onWritable behave h id

theorem accesses_register (s : EpollEventLoop) (handle : EpollEventHandle) (wantRead wantWrite : Bool) :
    (s.register handle wantRead wantWrite).accesses = s.accesses := by
  rw [EpollEventLoop.register]
  split <;> rfl

theorem accesses_act (s : EpollEventLoop) (a : Action) : (s.act a).accesses = s.accesses := by
  cases a with
  | close fd => rfl
  | defer n => rfl
  | destroy h =>
    show (s.destroy h).accesses = s.accesses
    rw [EpollEventLoop.destroy]
    split <;> rfl
  | register fd wantRead wantWrite onRead onWrite onError => exact accesses_register s _ wantRead wantWrite
  | update h wantRead wantWrite =>
    show (s.update h wantRead wantWrite).accesses = s.accesses
    rw [EpollEventLoop.update]
    split
    · rfl
    · split <;> rfl
  | schedule fd callback =>
    show (s.schedule fd callback).accesses = s.accesses
    rw [EpollEventLoop.schedule]
    split
    · rfl
    · exact accesses_register s _ true false

theorem accesses_call (s : EpollEventLoop) (c : Call) : (s.call behave c).accesses = s.accesses :=
  List.foldlRecOn (motive := fun t : EpollEventLoop => t.accesses = s.accesses) (behave s c) act rfl
    fun t ht a _ => (accesses_act t a).trans ht

theorem accesses_handleTimerExpired (s : EpollEventLoop) (fd : ℕ) :
    (s.handleTimerExpired behave fd).accesses = s.accesses := by
  rw [handleTimerExpired]
  split
  · rfl
  · rename_i entry _
    have herased : (s.eraseTimer fd entry).accesses = s.accesses := accesses_act _ (.destroy entry.handle)
    dsimp only
    split
    · rw [accesses_call, herased]
    · exact herased

/-- **A use is one access**, to the handle as it is before. -/
theorem accesses_use (s : EpollEventLoop) (u : Use) :
    (s.use behave u).accesses = s.accesses ++ [⟨u.handle, (s.handles u.handle).isSome⟩] := by
  cases u with
  | error h =>
    show (s.onError behave h).accesses = _
    rw [onError]
    split
    · rfl
    · split
      · exact accesses_call behave _ _
      · rfl
  | read h =>
    show (s.onReadable behave h).accesses = _
    rw [onReadable]
    split
    · rfl
    · split
      · rfl
      · exact accesses_call behave _ _
      · exact accesses_handleTimerExpired behave _ _
  | write h =>
    show (s.onWritable behave h).accesses = _
    rw [onWritable]
    split
    · rfl
    · split
      · exact accesses_call behave _ _
      · rfl

/-- All uses so far were of existing handles. -/
def AllLive (s : EpollEventLoop) : Prop := ∀ a ∈ s.accesses, a.live = true

omit behave in
theorem allLive_congr {s t : EpollEventLoop} (h : t.accesses = s.accesses) : t.AllLive ↔ s.AllLive := by
  rw [AllLive, AllLive, h]

theorem allLive_use (s : EpollEventLoop) (u : Use) :
    (s.use behave u).AllLive ↔ s.AllLive ∧ (s.handles u.handle).isSome = true := by
  rw [AllLive, accesses_use, List.forall_mem_append, List.forall_mem_singleton]
  exact Iff.rfl

theorem allLive_of_foldl {us : List Use} {s : EpollEventLoop} (h : (us.foldl (use behave) s).AllLive) :
    s.AllLive := by
  induction us generalizing s with
  | nil => exact h
  | cons u us ih => exact ((allLive_use behave s u).mp (ih h)).1

/-- A destroyed handle that is used is a use of a handle that does not exist. -/
theorem not_allLive_of_gone {us : List Use} {s : EpollEventLoop} {v : Use} (hv : v ∈ us) (hgone : s.Gone v.handle) :
    ¬(us.foldl (use behave) s).AllLive := by
  intro h
  induction us generalizing s with
  | nil => exact absurd hv List.not_mem_nil
  | cons u us ih =>
    rcases List.mem_cons.mp hv with rfl | hv
    · have hlive := ((allLive_use behave s v).mp (allLive_of_foldl behave h)).2
      rw [hgone.1] at hlive
      exact absurd hlive Bool.false_ne_true
    · exact ih hv ((stable_gone v.handle).use behave hgone u) h

/-! ### What a use destroys -/

/-- The handles that a callback destroys. -/
def targets (actions : List Action) : List HandleId :=
  actions.filterMap fun
    | .destroy h => some h
    | _ => none

/-- The handles destroyed by what `HandleTimerExpired` does and calls. -/
def destroyedByTimer (fd : ℕ) (s : EpollEventLoop) : List HandleId :=
  match s.timers.find? fun e => e.fd = fd with
  | none => []
  | some entry =>
    entry.handle :: if entry.callback then targets (behave (s.eraseTimer fd entry) (.timer fd)) else []

/-- **The handles that the callback of a use destroys.** -/
def destroyed (s : EpollEventLoop) : Use → List HandleId
  | .error h => match s.handles h with
    | none => []
    | some handle => if handle.onError then targets (behave (s.access h) (.error h)) else []
  | .read h => match s.handles h with
    | none => []
    | some handle => match handle.onRead with
      | .empty => []
      | .client => targets (behave (s.access h) (.read h))
      | .timer fd => destroyedByTimer behave fd (s.access h)
  | .write h => match s.handles h with
    | none => []
    | some handle => if handle.onWrite then targets (behave (s.access h) (.write h)) else []

/-- The handle exists. -/
def Live (id : HandleId) (s : EpollEventLoop) : Prop := (s.handles id).isSome = true

theorem not_live_of_gone {s : EpollEventLoop} {id : HandleId} (h : s.Gone id) : ¬s.Live id := by
  rw [Live, h.1]
  exact Bool.false_ne_true

theorem gone_of_not_live {s : EpollEventLoop} {id : HandleId} (hid : id < s.next) (h : ¬s.Live id) : s.Gone id := by
  rw [Live, Bool.not_eq_true, Option.isSome_eq_false_iff, Option.isNone_iff_eq_none] at h
  exact ⟨h, hid⟩

theorem live_register {s : EpollEventLoop} {id : HandleId} (h : s.Live id) (handle : EpollEventHandle)
    (wantRead wantWrite : Bool) : (s.register handle wantRead wantWrite).Live id := by
  rw [register]
  split
  · exact h
  · show (Function.update s.handles s.next (some handle) id).isSome = true
    by_cases hid : id = s.next
    · rw [hid, Function.update_self]
      rfl
    · rw [Function.update_of_ne hid]
      exact h

/-- An action destroys the handle that it names. -/
theorem live_act {s : EpollEventLoop} {id : HandleId} (h : s.Live id) (a : Action) :
    (s.act a).Live id ↔ a ≠ .destroy id := by
  cases a with
  | destroy id' =>
    show ((s.destroy id').handles id).isSome = true ↔ _
    rw [destroy]
    by_cases hid : id = id'
    · subst hid
      obtain ⟨handle, hhandle⟩ := Option.isSome_iff_exists.mp h
      rw [hhandle]
      dsimp only
      rw [Function.update_self]
      exact iff_of_false Bool.false_ne_true (fun hne => hne rfl)
    · refine iff_of_true ?_ fun heq => hid (Action.destroy.inj heq).symm
      split
      · exact h
      · dsimp only
        rw [Function.update_of_ne hid]
        exact h
  | close fd => exact iff_of_true h Action.noConfusion
  | register fd wantRead wantWrite onRead onWrite onError =>
    exact iff_of_true (live_register h _ wantRead wantWrite) Action.noConfusion
  | update id' wantRead wantWrite =>
    refine iff_of_true ?_ Action.noConfusion
    show (s.update id' wantRead wantWrite).Live id
    rw [update]
    split
    · exact h
    · split <;> exact h
  | schedule fd callback =>
    refine iff_of_true ?_ Action.noConfusion
    show (s.schedule fd callback).Live id
    rw [schedule]
    split
    · exact h
    · exact live_register h { fd := fd, onRead := .timer fd } true false
  | defer n => exact iff_of_true h Action.noConfusion

theorem mem_targets {id : HandleId} {a : Action} {actions : List Action} :
    id ∈ targets (a :: actions) ↔ a = .destroy id ∨ id ∈ targets actions := by
  cases a <;> simp [targets, eq_comm]

theorem gone_foldl {s : EpollEventLoop} {id : HandleId} (h : s.Gone id) (actions : List Action) :
    (actions.foldl act s).Gone id :=
  List.foldlRecOn actions act h fun _ ht a _ => ht.act a

theorem live_foldl {s : EpollEventLoop} {id : HandleId} (h : s.Live id) (hid : id < s.next) (actions : List Action) :
    (actions.foldl act s).Live id ↔ id ∉ targets actions := by
  induction actions generalizing s with
  | nil => exact iff_of_true h List.not_mem_nil
  | cons a actions ih =>
    have hid' : id < (s.act a).next := Nat.lt_of_lt_of_le hid (next_act s a)
    rw [List.foldl_cons, mem_targets, not_or]
    by_cases hlive : (s.act a).Live id
    · rw [ih hlive hid']
      exact (and_iff_right ((live_act h a).mp hlive)).symm
    · have hgone : (actions.foldl act (s.act a)).Gone id := gone_foldl (gone_of_not_live hid' hlive) actions
      exact iff_of_false (not_live_of_gone hgone) fun hand => hlive ((live_act h a).mpr hand.1)

theorem live_call {s : EpollEventLoop} {id : HandleId} (h : s.Live id) (hid : id < s.next) (c : Call) :
    (s.call behave c).Live id ↔ id ∉ targets (behave s c) :=
  live_foldl (s := { s with calls := s.calls ++ [c] }) h hid _

theorem live_handleTimerExpired {s : EpollEventLoop} {id : HandleId} (h : s.Live id) (hid : id < s.next) (fd : ℕ) :
    (s.handleTimerExpired behave fd).Live id ↔ id ∉ destroyedByTimer behave fd s := by
  rw [handleTimerExpired, destroyedByTimer]
  cases s.timers.find? fun e => e.fd = fd with
  | none => exact iff_of_true h List.not_mem_nil
  | some entry =>
    have hid' : id < (s.eraseTimer fd entry).next := (stable_lt_next id).eraseTimer hid fd entry
    have herased : (s.eraseTimer fd entry).Live id ↔ id ≠ entry.handle :=
      (live_act (s := { s.close fd with timers := s.timers.eraseP fun e => e.fd = fd }) h
        (.destroy entry.handle)).trans (not_congr ⟨fun heq => (Action.destroy.inj heq).symm, fun heq => heq ▸ rfl⟩)
    dsimp only
    rw [List.mem_cons, not_or, ← ne_eq, ← herased]
    cases entry.callback with
    | false => exact (and_iff_left List.not_mem_nil).symm
    | true =>
      rw [if_pos rfl, if_pos rfl]
      by_cases hlive : (s.eraseTimer fd entry).Live id
      · rw [live_call behave hlive hid']
        exact (and_iff_right hlive).symm
      · have hgone := (stable_gone id).call behave (gone_of_not_live hid' hlive) (.timer fd)
        exact iff_of_false (not_live_of_gone hgone) fun hand => hlive hand.1

/-- **A use leaves a handle alone**, exactly if its callback does not destroy it. -/
theorem live_use {s : EpollEventLoop} {id : HandleId} (h : s.Live id) (hid : id < s.next) (u : Use) :
    (s.use behave u).Live id ↔ id ∉ destroyed behave s u := by
  cases u with
  | error h' =>
    show (s.onError behave h').Live id ↔ _
    rw [onError, destroyed]
    cases s.handles h' with
    | none => exact iff_of_true h List.not_mem_nil
    | some handle =>
      dsimp only
      cases handle.onError with
      | true => exact live_call (s := s.access h') behave h hid _
      | false => exact iff_of_true h List.not_mem_nil
  | read h' =>
    show (s.onReadable behave h').Live id ↔ _
    rw [onReadable, destroyed]
    cases s.handles h' with
    | none => exact iff_of_true h List.not_mem_nil
    | some handle =>
      dsimp only
      cases handle.onRead with
      | empty => exact iff_of_true h List.not_mem_nil
      | client => exact live_call (s := s.access h') behave h hid _
      | timer fd => exact live_handleTimerExpired (s := s.access h') behave h hid _
  | write h' =>
    show (s.onWritable behave h').Live id ↔ _
    rw [onWritable, destroyed]
    cases s.handles h' with
    | none => exact iff_of_true h List.not_mem_nil
    | some handle =>
      dsimp only
      cases handle.onWrite with
      | true => exact live_call (s := s.access h') behave h hid _
      | false => exact iff_of_true h List.not_mem_nil

/-- **No callback destroys a handle that a later use needs.** -/
def Spares : List Use → EpollEventLoop → Prop
  | [], _ => True
  | u :: us, s => (∀ v ∈ us, v.handle ∉ destroyed behave s u) ∧ Spares us (s.use behave u)

instance decidableSpares : ∀ (us : List Use) (s : EpollEventLoop), Decidable (Spares behave us s)
  | [], _ => isTrue trivial
  | _ :: us, _ => @instDecidableAnd _ _ _ (decidableSpares us _)

/-- **A batch of existing handles** touches existing handles only, exactly if no callback destroys one of a later
use. -/
theorem allLive_iff_spares {us : List Use} {s : EpollEventLoop} (hs : s.Inv) (hall : s.AllLive)
    (hlive : ∀ u ∈ us, s.Live u.handle) : (us.foldl (use behave) s).AllLive ↔ Spares behave us s := by
  induction us generalizing s with
  | nil => exact iff_of_true hall trivial
  | cons u us ih =>
    have hu : (s.use behave u).AllLive := (allLive_use behave s u).mpr ⟨hall, hlive u List.mem_cons_self⟩
    have hinv := stable_inv.use behave hs u
    have hkept : ∀ v ∈ us, (s.use behave u).Live v.handle ↔ v.handle ∉ destroyed behave s u := fun v hv =>
      live_use behave (hlive v (List.mem_cons_of_mem u hv)) (hs.lt_next (hlive v (List.mem_cons_of_mem u hv))) u
    rw [List.foldl_cons, Spares]
    constructor
    · intro h
      have hspares : ∀ v ∈ us, (s.use behave u).Live v.handle := by
        intro v hv
        by_contra hnot
        have hid := (stable_lt_next v.handle).use behave (hs.lt_next (hlive v (List.mem_cons_of_mem u hv))) u
        exact not_allLive_of_gone behave hv (gone_of_not_live hid hnot) h
      exact ⟨fun v hv => (hkept v hv).mp (hspares v hv), (ih hinv hu hspares).mp h⟩
    · rintro ⟨hspares, h⟩
      exact (ih hinv hu fun v hv => (hkept v hv).mpr (hspares v hv)).mpr h

/-! ### Whole runs -/

/-- What happens to the loop: an action of the program between polls, or a poll. -/
inductive Step where
  | act (a : Action)
  | poll (events : Option (List EpollEvent))
deriving DecidableEq, Repr

/-- A step. -/
def step (s : EpollEventLoop) : Step → EpollEventLoop
  | .act a => s.act a
  | .poll events => s.poll behave events

/-- `epoll_wait` returns what the kernel knows. -/
def ReturnedAt (s : EpollEventLoop) : Step → Prop
  | .poll (some events) => Returned (s.processDeferredCallbacks behave) events
  | _ => True

/-- No callback destroys a handle that the batch still needs. -/
def SparesAt (s : EpollEventLoop) : Step → Prop
  | .poll (some events) => Spares behave (uses events) (s.processDeferredCallbacks behave)
  | _ => True

instance (s : EpollEventLoop) : ∀ a : Step, Decidable (SparesAt behave s a)
  | .poll (some _) => inferInstanceAs (Decidable (Spares _ _ _))
  | .poll none | .act _ => isTrue trivial

theorem Stable.dispatch {P : EpollEventLoop → Prop} (hP : Stable P) {s : EpollEventLoop} (h : P s)
    (events : List EpollEvent) : P (s.dispatch behave events) := by
  rw [dispatch_eq]
  exact List.foldlRecOn (uses events) (EpollEventLoop.use behave) h fun _ ht u _ => hP.use behave ht u

theorem Stable.step {P : EpollEventLoop → Prop} (hP : Stable P) {s : EpollEventLoop} (h : P s) (a : Step) :
    P (s.step behave a) := by
  cases a with
  | act a => exact hP.act s a h
  | poll events =>
    have hdeferred := hP.processDeferredCallbacks behave h
    cases events with
    | none => exact hdeferred
    | some events => exact hP.processDeferredCallbacks behave (hP.dispatch behave hdeferred events)

theorem accesses_processDeferredCallbacks (s : EpollEventLoop) :
    (s.processDeferredCallbacks behave).accesses = s.accesses :=
  List.foldlRecOn (motive := fun t : EpollEventLoop => t.accesses = s.accesses) s.deferredCallbacks _ rfl
    fun _ ht _ _ => (accesses_call behave _ _).trans ht

theorem handle_of_mem_uses {events : List EpollEvent} {u : Use} (hu : u ∈ uses events) :
    ∃ e ∈ events, e.handle = some u.handle := by
  obtain ⟨e, he, hu⟩ := List.mem_flatMap.mp hu
  refine ⟨e, he, ?_⟩
  rw [eventUses] at hu
  cases hhandle : e.handle with
  | none => rw [hhandle] at hu; exact absurd hu List.not_mem_nil
  | some h =>
    rw [hhandle] at hu
    dsimp only at hu
    split at hu
    · obtain rfl := List.mem_singleton.mp hu
      rfl
    · rcases List.mem_append.mp hu with hu | hu <;> split at hu
      · obtain rfl := List.mem_singleton.mp hu
        rfl
      · exact absurd hu List.not_mem_nil
      · obtain rfl := List.mem_singleton.mp hu
        rfl
      · exact absurd hu List.not_mem_nil

/-- A poll uses existing handles only, exactly if its callbacks spare the handles of the batch. -/
theorem allLive_step {s : EpollEventLoop} (hs : s.Inv) (hall : s.AllLive) {a : Step} (h : s.ReturnedAt behave a) :
    (s.step behave a).AllLive ↔ s.SparesAt behave a := by
  cases a with
  | act a =>
    exact iff_of_true ((allLive_congr (accesses_act s a)).mpr hall) trivial
  | poll events =>
    have hdeferred : (s.processDeferredCallbacks behave).AllLive :=
      (allLive_congr (accesses_processDeferredCallbacks behave s)).mpr hall
    cases events with
    | none => exact iff_of_true hdeferred trivial
    | some events =>
      have hinv := stable_inv.processDeferredCallbacks behave hs
      have hlive : ∀ u ∈ uses events, (s.processDeferredCallbacks behave).Live u.handle := by
        intro u hu
        obtain ⟨e, he, hhandle⟩ := handle_of_mem_uses hu
        obtain ⟨fd, r, hr, hrh, -⟩ := h.registered e he u.handle hhandle
        obtain ⟨handle, hh, -⟩ := hinv.interest fd r hr
        rw [Live, ← hrh, hh]
        rfl
      refine (allLive_congr (accesses_processDeferredCallbacks behave _)).trans ?_
      rw [dispatch_eq]
      exact allLive_iff_spares behave hinv hdeferred hlive

theorem allLive_of_step {s : EpollEventLoop} {a : Step} (h : (s.step behave a).AllLive) : s.AllLive := by
  cases a with
  | act a => exact (allLive_congr (accesses_act s a)).mp h
  | poll events =>
    have hdeferred := allLive_congr (accesses_processDeferredCallbacks behave s)
    cases events with
    | none => exact hdeferred.mp h
    | some events =>
      have hall := (allLive_congr (accesses_processDeferredCallbacks behave _)).mp h
      rw [dispatch_eq] at hall
      exact hdeferred.mp (allLive_of_foldl behave hall)

theorem allLive_of_run {s : EpollEventLoop} {steps : List Step} (h : (Runs.run (step behave) s steps).AllLive) :
    s.AllLive := by
  induction steps generalizing s with
  | nil => exact h
  | cons a steps ih => exact allLive_of_step behave (ih h)

theorem inv_init : Inv {} where
  fresh _ _ := rfl
  interest _ _ hr := absurd hr (Option.some_ne_none _).symm

theorem allLive_run {s : EpollEventLoop} (hs : s.Inv) (hall : s.AllLive) {steps : List Step}
    (h : Runs.Along (ReturnedAt behave) (step behave) s steps) :
    (Runs.run (step behave) s steps).AllLive ↔ Runs.Along (SparesAt behave) (step behave) s steps := by
  induction steps generalizing s with
  | nil => exact iff_of_true hall trivial
  | cons a steps ih =>
    have hstep := allLive_step behave hs hall h.1
    rw [Runs.run_cons, Runs.Along]
    constructor
    · intro hend
      have hnext : (s.step behave a).AllLive := allLive_of_run behave hend
      exact ⟨hstep.mp hnext, (ih (stable_inv.step behave hs a) hnext h.2).mp hend⟩
    · rintro ⟨hspares, hrest⟩
      exact (ih (stable_inv.step behave hs a) (hstep.mpr hspares) h.2).mpr hrest

end Uses

/-- **Which handles the loop touches**: over every run and whatever the callbacks do, all uses are of existing
handles exactly if no callback of a batch destroys a handle that a later use of the batch is of. -/
theorem live_iff_spares (behave : Behaviour) (steps : List Step)
    (h : Runs.Along (ReturnedAt behave) (step behave) {} steps) :
    (Runs.run (step behave) {} steps).AllLive ↔ Runs.Along (SparesAt behave) (step behave) {} steps :=
  allLive_run behave inv_init (fun _ hmem => absurd hmem List.not_mem_nil) h

/-- A client whose read callback destroys the handle with the given pointer, as `Close` does. -/
def closing (h : HandleId) : Behaviour := fun _ c => if c = .read 0 then [.destroy h] else []

/-- Two clients, both readable. -/
def twoReadable : List Step :=
  [.act (.register 3 true false true false false), .act (.register 4 true false true false false),
    .poll (some [⟨some 0, { readable := true }⟩, ⟨some 1, { readable := true }⟩])]

/-- A client, readable and writable. -/
def bothBits : List Step :=
  [.act (.register 3 true true true true false), .poll (some [⟨some 0, { readable := true, writable := true }⟩])]

theorem twoReadable_returned (h : HandleId) :
    Runs.Along (ReturnedAt (closing h)) (step (closing h)) {} twoReadable := by
  refine ⟨trivial, trivial, ⟨by decide, by decide, ?_⟩, trivial⟩
  intro e he id hid
  rcases List.mem_pair.mp he with rfl | rfl
  · obtain rfl := Option.some.inj hid
    exact ⟨3, ⟨0, true, false⟩, rfl, rfl, fun _ => rfl, fun hw => hw⟩
  · obtain rfl := Option.some.inj hid
    exact ⟨4, ⟨1, true, false⟩, rfl, rfl, fun _ => rfl, fun hw => hw⟩

theorem bothBits_returned (h : HandleId) : Runs.Along (ReturnedAt (closing h)) (step (closing h)) {} bothBits := by
  refine ⟨trivial, ⟨by decide, by decide, ?_⟩, trivial⟩
  intro e he id hid
  obtain rfl := List.mem_singleton.mp he
  obtain rfl := Option.some.inj hid
  exact ⟨3, ⟨0, true, true⟩, rfl, rfl, fun _ => rfl, fun _ => rfl⟩

/-- With a callback that destroys neither, both are served. -/
theorem live_iff_spares_twoReadable : (Runs.run (step (closing 7)) {} twoReadable).AllLive := by
  refine (live_iff_spares (closing 7) twoReadable (twoReadable_returned 7)).mpr ⟨trivial, trivial, ?_, trivial⟩
  decide

/-- **The loop touches destroyed handles**: that of the other client, and its own for the write bit. -/
theorem touches_destroyed :
    (Runs.Along (ReturnedAt (closing 1)) (step (closing 1)) {} twoReadable ∧
      ¬(Runs.run (step (closing 1)) {} twoReadable).AllLive) ∧
    (Runs.Along (ReturnedAt (closing 0)) (step (closing 0)) {} bothBits ∧
      ¬(Runs.run (step (closing 0)) {} bothBits).AllLive) := by
  refine ⟨⟨twoReadable_returned 1, fun h => ?_⟩, bothBits_returned 0, fun h => ?_⟩
  · have hdead : (⟨1, false⟩ : Access) ∈ (Runs.run (step (closing 1)) {} twoReadable).accesses := by decide
    exact absurd (h _ hdead) Bool.false_ne_true
  · have hdead : (⟨0, false⟩ : Access) ∈ (Runs.run (step (closing 0)) {} bothBits).accesses := by decide
    exact absurd (h _ hdead) Bool.false_ne_true

end EpollEventLoop

end DbnPipe.Epoll
