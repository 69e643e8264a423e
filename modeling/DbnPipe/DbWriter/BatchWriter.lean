import DbnPipe.Client.StreamingClient
import DbnPipe.Library.Runs
import Mathlib.Algebra.Order.Group.Int
import Mathlib.Data.List.Infix
import Mathlib.Algebra.GroupWithZero.Nat

/-!
# Backpressure of the batch writer

`dbwriter::BatchWriter` suspends its upstream when too many batches are pending and resumes it when few are, and the
upstream **counts** the calls.

* `BatchWriter` — the members, the calls made on the upstream, and the place of the coroutine `process_queue`;
* `Frame` — a `Suspend` or `Resume` of the upstream that has not returned: the upstream may call the writer from
  inside;
* `enqueue`, `requestStop`, `drain`, `processQueue`, `checkBackpressure`, `release` — **the functions**;
* `Settled` — one suspension is outstanding where `suspended_` is set, none elsewhere, and none is left behind;
* `Careful` — the condition: **no second suspension, and no stop inside a call of the upstream**;
* `settled_iff` — a run is settled throughout exactly where it is careful;
* `suspendCount_upstream` — a `StreamingClient` as the upstream counts what is outstanding.
-/

namespace DbnPipe.DbWriter

/-- `BackpressureConfig`. -/
structure BackpressureConfig where
  highWaterMark : ℕ := 256
  lowWaterMark : ℕ := 64
deriving DecidableEq, Repr

/-- A call on `suspendable_`. -/
inductive UpstreamCall where
  | suspend | resume
deriving DecidableEq, Repr

/-- Whose call of the upstream has not returned. -/
inductive Frame where
  | enqueue | requestStop | drain | processQueue
deriving DecidableEq, Repr

/-- Where `process_queue` is: handed to `co_spawn`, or awaiting `write_batch`. -/
inductive Coroutine (Record : Type*) where
  | spawned
  | writeBatch (batches : List (List Record))
deriving DecidableEq, Repr

/-- `WriteStats`, of which `batches_pending` is the length of the queue. -/
structure WriteStats where
  copiesCompleted : ℕ := 0
  batchesCoalesced : ℕ := 0
  rowsCopied : ℕ := 0
  rowsInserted : ℕ := 0
deriving DecidableEq, Repr

/-- `BatchWriter`; `writing_` is that there is a coroutine.  `upstream` records the calls made on the suspendable, and
`frames` those that have not returned, the innermost first. -/
structure BatchWriter (Record : Type*) where
  config : BackpressureConfig := {}
  suspendable : Bool := false
  pendingBatches : List (List Record) := []
  coroutine : Option (Coroutine Record) := none
  suspended : Bool := false
  draining : Bool := false
  stopping : Bool := false
  stats : WriteStats := {}
  upstream : List UpstreamCall := []
  frames : List Frame := []
deriving DecidableEq, Repr

namespace BatchWriter

variable {Record : Type*}

/-! ### The functions -/

/-- `writing_`. -/
def writing (w : BatchWriter Record) : Bool := w.coroutine.isSome

/-- `enqueue` behind `check_backpressure`. -/
def spawn (w : BatchWriter Record) : BatchWriter Record :=
  if w.writing then w else { w with coroutine := some .spawned }

/-- The loop of `process_queue`, from its condition to the next `co_await` or the end. -/
def processQueue (w : BatchWriter Record) : BatchWriter Record :=
  if w.pendingBatches ≠ [] ∧ w.stopping = false then
    { w with coroutine := some (.writeBatch w.pendingBatches), pendingBatches := [] }
  else { w with coroutine := none }

/-- What a function does after the assignment to `suspended_`. -/
def rest : Frame → BatchWriter Record → BatchWriter Record
  | .enqueue, w => w.spawn
  | .requestStop, w => w
  | .drain, w => w
  | .processQueue, w => w.processQueue

/-- `check_backpressure`, with what its caller goes on with. -/
def checkBackpressure (caller : Frame) (w : BatchWriter Record) : BatchWriter Record :=
  if w.suspendable = true ∧ w.config.highWaterMark < w.pendingBatches.length then
    { w with upstream := w.upstream ++ [.suspend], frames := caller :: w.frames }
  else rest caller w

/-- `Resume`, where there is a suspendable, `suspended_` is set, and `due`. -/
def release (due : Prop) [Decidable due] (caller : Frame) (w : BatchWriter Record) : BatchWriter Record :=
  if w.suspendable = true ∧ w.suspended = true ∧ due then
    { w with upstream := w.upstream ++ [.resume], frames := caller :: w.frames }
  else rest caller w

/-- `check_resume`. -/
def checkResume (w : BatchWriter Record) : BatchWriter Record :=
  w.release (w.pendingBatches.length < w.config.lowWaterMark) .processQueue

/-- The call of the upstream returns: `suspended_` is assigned, and the caller goes on. -/
def returns (w : BatchWriter Record) : BatchWriter Record :=
  match w.frames with
  | [] => w
  | caller :: frames => rest caller { w with frames := frames, suspended := decide (caller = .enqueue) }

/-- Whether `enqueue` takes a batch. -/
def accepts (w : BatchWriter Record) : Bool := !w.stopping && !w.draining

/-- `enqueue`. -/
def enqueue (batch : List Record) (w : BatchWriter Record) : BatchWriter Record :=
  if w.accepts then { w with pendingBatches := w.pendingBatches ++ [batch] }.checkBackpressure .enqueue else w

/-- `request_stop`. -/
def requestStop (w : BatchWriter Record) : BatchWriter Record :=
  { w with stopping := true, pendingBatches := [] }.release True .requestStop

/-- `drain`, up to its wait. -/
def drain (w : BatchWriter Record) : BatchWriter Record := { w with draining := true }.release True .drain

/-- The wait of `drain` runs out.  The source can set `stopping_` also when the end of `process_queue` has woken it; then
nothing is pending, and nothing is accepted any more. -/
def drainTimeout (w : BatchWriter Record) : BatchWriter Record :=
  if w.draining && w.writing then { w with stopping := true } else w

/-- The end of `write_batch`: **some** number of rows inserted, or an exception. -/
def batchWritten (batches : List (List Record)) (inserted : Option ℕ) (w : BatchWriter Record) : BatchWriter Record :=
  match inserted with
  | none => w
  | some inserted =>
    { w with stats :=
        { copiesCompleted := w.stats.copiesCompleted + 1
          batchesCoalesced := w.stats.batchesCoalesced + batches.length
          rowsCopied := w.stats.rowsCopied + (batches.map List.length).sum
          rowsInserted := w.stats.rowsInserted + inserted } }

/-! ### Runs -/

/-- What happens: a call, also from inside a call of the upstream; the return of such a call; and, where there is
none, a step of the loop that the coroutines run on. -/
inductive Action (Record : Type*) where
  | enqueue (batch : List Record)
  | requestStop
  | drain
  | returns
  | drainTimeout
  | processQueue
  | written (inserted : Option ℕ)
deriving DecidableEq, Repr

/-- One action; one that cannot happen changes nothing. -/
def step (w : BatchWriter Record) : Action Record → BatchWriter Record
  | .enqueue batch => w.enqueue batch
  | .requestStop => w.requestStop
  | .drain => w.drain
  | .returns => w.returns
  | .drainTimeout => if w.frames = [] then w.drainTimeout else w
  | .processQueue =>
    match w.frames, w.coroutine with
    | [], some .spawned => w.processQueue
    | _, _ => w
  | .written inserted =>
    match w.frames, w.coroutine with
    | [], some (.writeBatch batches) => (w.batchWritten batches inserted).checkResume
    | _, _ => w

/-- All calls of the upstream return. -/
def unwind (w : BatchWriter Record) : BatchWriter Record := returns^[w.frames.length] w

/-! ### What is outstanding -/

/-- Suspend calls minus resume calls. -/
def outstanding (w : BatchWriter Record) : ℤ := w.upstream.count .suspend - w.upstream.count .resume

theorem outstanding_suspend (w : BatchWriter Record) (frames : List Frame) :
    outstanding { w with upstream := w.upstream ++ [.suspend], frames := frames } = w.outstanding + 1 := by
  have h : ([.suspend] : List UpstreamCall).count .suspend = 1 ∧ ([.suspend] : List UpstreamCall).count .resume = 0 := by
    decide
  simp only [outstanding, List.count_append, h.1, h.2]
  omega

theorem outstanding_resume (w : BatchWriter Record) (frames : List Frame) :
    outstanding { w with upstream := w.upstream ++ [.resume], frames := frames } = w.outstanding - 1 := by
  have h : ([.resume] : List UpstreamCall).count .suspend = 0 ∧ ([.resume] : List UpstreamCall).count .resume = 1 := by
    decide
  simp only [outstanding, List.count_append, h.1, h.2]
  omega

/-- **Backpressure is balanced**, and released where it must be. -/
structure Settled (w : BatchWriter Record) : Prop where
  balanced : w.outstanding = if w.suspended then 1 else 0
  stopped : w.stopping = true ∨ w.draining = true → w.outstanding = 0
  idle : w.writing = false → 0 < w.config.lowWaterMark → w.outstanding = 0
  drained : w.pendingBatches.length < w.config.lowWaterMark → ∀ batches, w.coroutine = some (.writeBatch batches) →
    ∀ inserted, (w.step (.written inserted)).outstanding = 0

/-- **No second suspension, and no stop inside a call of the upstream.** -/
def Careful (w : BatchWriter Record) : Action Record → Prop
  | .enqueue _ =>
    w.accepts = true → w.suspendable = true → w.config.highWaterMark < w.pendingBatches.length + 1 →
      w.suspended = false ∧ w.frames = []
  | .requestStop => w.frames = []
  | .drain => w.frames = []
  | _ => True

/-! ### The invariant -/

/-- How many suspensions are outstanding, by `suspended_`, whether batches are taken, and the calls in progress. -/
inductive Held : ℤ → Bool → Bool → List Frame → Prop
  | quiet (suspended accepts : Bool) (h : accepts = false → suspended = false) :
    Held (if suspended then 1 else 0) suspended accepts []
  | suspending : Held 1 false true [.enqueue]
  | resuming (caller : Frame) (accepts : Bool) (h : caller ≠ .enqueue) : Held 0 true accepts [caller]

theorem Held.calm {n : ℤ} {suspended accepts : Bool} (h : Held n suspended accepts []) :
    n = (if suspended then 1 else 0) ∧ (accepts = false → suspended = false) := by
  cases h with
  | quiet _ _ h => exact ⟨rfl, h⟩

theorem Held.calling {n : ℤ} {suspended accepts : Bool} {frames : List Frame} (h : Held n suspended accepts frames)
    (hframes : frames ≠ []) :
    (frames = [.enqueue] ∧ n = 1 ∧ suspended = false ∧ accepts = true) ∨
      ∃ caller ≠ .enqueue, frames = [caller] ∧ n = 0 ∧ suspended = true := by
  cases h with
  | quiet _ _ h => exact absurd rfl hframes
  | suspending => exact Or.inl ⟨rfl, rfl, rfl, rfl⟩
  | resuming caller _ h => exact Or.inr ⟨caller, h, rfl, rfl, rfl⟩

/-- What holds after every action of a careful run. -/
structure Inv (w : BatchWriter Record) : Prop where
  held : Held w.outstanding w.suspended w.accepts w.frames
  spawned : w.coroutine = some .spawned → w.pendingBatches ≠ [] ∨ w.stopping = true
  suspending : .enqueue ∈ w.frames → w.pendingBatches ≠ []
  suspendable : w.suspended = true → w.suspendable = true
  calling : w.frames ≠ [] → w.suspendable = true
  idle : w.frames = [] → w.coroutine = none → w.suspended = true → w.config.lowWaterMark = 0

theorem inv_init (config : BackpressureConfig) (suspendable : Bool) :
    Inv { config, suspendable : BatchWriter Record } where
  held := .quiet false true fun h => absurd h (by decide)
  spawned h := absurd h (by simp)
  suspending h := absurd h List.not_mem_nil
  suspendable h := absurd h (by simp)
  calling h := absurd rfl h
  idle _ _ h := absurd h (by simp)

theorem spawn_eq (w : BatchWriter Record) :
    ∃ c, w.spawn = { w with coroutine := some c } ∧ (w.coroutine = some c ∨ c = .spawned) := by
  rw [spawn, writing]
  cases hc : w.coroutine with
  | none => exact ⟨.spawned, rfl, Or.inr rfl⟩
  | some c =>
      refine ⟨c, (if_pos rfl).trans ?_, Or.inl rfl⟩
      rw [← hc]

/-- With a coroutine, and a batch for it. -/
theorem inv_spawn {w : BatchWriter Record} (held : Held w.outstanding w.suspended w.accepts w.frames)
    (hpending : w.pendingBatches ≠ []) (suspendable : w.suspended = true → w.suspendable = true)
    (calling : w.frames ≠ [] → w.suspendable = true) : Inv w.spawn := by
  obtain ⟨c, hspawn, -⟩ := w.spawn_eq
  rw [hspawn]
  exact ⟨held, fun _ => Or.inl hpending, fun _ => hpending, suspendable, calling, fun _ h => absurd h (by simp)⟩

/-- The end of the loop, or its next round. -/
theorem inv_processQueue {w : BatchWriter Record}
    (held : Held w.outstanding w.suspended w.accepts []) (hframes : w.frames = [])
    (suspendable : w.suspended = true → w.suspendable = true)
    (hlow : w.suspended = true → w.pendingBatches = [] → w.config.lowWaterMark = 0) : Inv w.processQueue := by
  have hcalm : ∀ x : Frame, x ∉ w.frames := fun x h => List.not_mem_nil (hframes ▸ h)
  rw [processQueue]
  split
  · exact ⟨hframes ▸ held, fun h => absurd h (by simp), fun h => absurd h (hcalm _), suspendable,
      fun h => absurd hframes h, fun _ h => absurd h (by simp)⟩
  · rename_i hend
    refine ⟨hframes ▸ held, fun h => absurd h (by simp), fun h => absurd h (hcalm _), suspendable,
      fun h => absurd hframes h, fun _ _ hsuspended => ?_⟩
    by_cases hpending : w.pendingBatches = []
    · exact hlow hsuspended hpending
    · have hstopping : w.stopping = true := by
        by_contra hstopping
        exact hend ⟨hpending, Bool.eq_false_iff.mpr hstopping⟩
      have haccepts : w.accepts = false := by rw [accepts, hstopping]; rfl
      exact absurd hsuspended (by rw [held.calm.2 haccepts]; decide)

/-- `Resume` and the rest of its caller, where no call is in progress. -/
theorem inv_release {w : BatchWriter Record} {due : Prop} [Decidable due] {caller : Frame}
    (hcaller : caller ≠ .enqueue) (hframes : w.frames = [])
    (hbalanced : w.outstanding = if w.suspended then 1 else 0)
    (suspendable : w.suspended = true → w.suspendable = true)
    (spawned : w.coroutine = some .spawned → w.pendingBatches ≠ [] ∨ w.stopping = true)
    (hrest : (w.suspended = true → ¬ due) → Inv (rest caller w)) : Inv (w.release due caller) := by
  rw [release]
  split
  · rename_i h
    have hone : w.outstanding = 1 := by rw [hbalanced, if_pos h.2.1]
    refine ⟨?_, spawned, ?_, suspendable, fun _ => h.1, fun hnil => absurd hnil (by simp)⟩
    · rw [outstanding_resume, hone, hframes]
      show Held (1 - 1) w.suspended w.accepts [caller]
      rw [h.2.1]
      exact .resuming caller _ hcaller
    · rw [hframes]
      intro hmem
      exact absurd (List.mem_singleton.mp hmem).symm hcaller
  · rename_i h
    exact hrest fun hsuspended hdue => h ⟨suspendable hsuspended, hsuspended, hdue⟩

theorem Inv.enqueue {w : BatchWriter Record} (h : Inv w) {batch : List Record} (hok : Careful w (.enqueue batch)) :
    Inv (w.enqueue batch) := by
  rw [BatchWriter.enqueue]
  split
  · rename_i haccepts
    have hne : w.pendingBatches ++ [batch] ≠ [] := List.append_ne_nil_of_right_ne_nil _ (by simp)
    rw [checkBackpressure]
    split
    · rename_i hhigh
      have hlength : w.config.highWaterMark < w.pendingBatches.length + 1 := by
        have := hhigh.2
        rwa [List.length_append, List.length_singleton] at this
      obtain ⟨hsuspended, hframes⟩ := hok haccepts hhigh.1 hlength
      have hzero : w.outstanding = 0 := by
        have := (hframes ▸ h.held).calm.1
        rwa [hsuspended, if_neg (by decide)] at this
      refine ⟨?_, fun _ => Or.inl hne, fun _ => hne, h.suspendable, fun _ => hhigh.1, fun hnil => absurd hnil (by simp)⟩
      show Held (outstanding { w with upstream := w.upstream ++ [.suspend], frames := .enqueue :: w.frames })
        w.suspended w.accepts (.enqueue :: w.frames)
      rw [outstanding_suspend, hzero, hsuspended, haccepts, hframes]
      exact .suspending
    · exact inv_spawn h.held hne h.suspendable h.calling
  · exact h

theorem Inv.requestStop {w : BatchWriter Record} (h : Inv w) (hframes : w.frames = []) : Inv w.requestStop := by
  have hcalm := (hframes ▸ h.held).calm
  refine inv_release (by decide) hframes hcalm.1 h.suspendable (fun _ => Or.inr rfl) fun hsuspended => ?_
  have hoff : w.suspended = false := Bool.eq_false_iff.mpr fun hon => hsuspended hon trivial
  refine ⟨?_, fun _ => Or.inr rfl, fun hmem => ?_, h.suspendable, h.calling, fun _ _ hon => ?_⟩
  · show Held w.outstanding w.suspended _ w.frames
    rw [hcalm.1, hframes]
    exact .quiet _ _ fun _ => hoff
  · exact absurd (hframes ▸ hmem) List.not_mem_nil
  · exact absurd hon (hsuspended · trivial)

theorem Inv.drain {w : BatchWriter Record} (h : Inv w) (hframes : w.frames = []) : Inv w.drain := by
  have hcalm := (hframes ▸ h.held).calm
  refine inv_release (by decide) hframes hcalm.1 h.suspendable h.spawned fun hsuspended => ?_
  have hoff : w.suspended = false := Bool.eq_false_iff.mpr fun hon => hsuspended hon trivial
  refine ⟨?_, h.spawned, h.suspending, h.suspendable, h.calling, fun _ _ hon => ?_⟩
  · show Held w.outstanding w.suspended _ w.frames
    rw [hcalm.1, hframes]
    exact .quiet _ _ fun _ => hoff
  · exact absurd hon (hsuspended · trivial)

theorem Inv.drainTimeout {w : BatchWriter Record} (h : Inv w) (hframes : w.frames = []) : Inv w.drainTimeout := by
  rw [BatchWriter.drainTimeout]
  split
  · rename_i hwait
    have hcalm := (hframes ▸ h.held).calm
    have hoff : w.suspended = false := by
      refine hcalm.2 ?_
      rw [accepts, (Bool.and_eq_true_iff.mp hwait).1, Bool.not_true, Bool.and_false]
    refine ⟨?_, fun _ => Or.inr rfl, h.suspending, h.suspendable, h.calling, h.idle⟩
    show Held w.outstanding w.suspended _ w.frames
    rw [hcalm.1, hframes]
    exact .quiet _ _ fun _ => hoff
  · exact h

theorem returns_eq {w : BatchWriter Record} {caller : Frame} {frames : List Frame} (h : w.frames = caller :: frames) :
    w.returns = rest caller { w with frames := frames, suspended := decide (caller = .enqueue) } := by
  rw [returns, h]

theorem Inv.returns {w : BatchWriter Record} (h : Inv w) : Inv w.returns := by
  by_cases hnil : w.frames = []
  · rw [BatchWriter.returns, hnil]
    exact h
  rcases h.held.calling hnil with ⟨hframes, hone, -, haccepts⟩ | ⟨caller, hcaller, hframes, hzero, hsuspended⟩
  · rw [returns_eq hframes]
    refine inv_spawn ?_ (h.suspending (hframes ▸ List.mem_singleton_self _)) (fun _ => h.calling hnil)
      (fun hne => absurd rfl hne)
    show Held w.outstanding true w.accepts []
    rw [hone, haccepts]
    exact .quiet true true fun h => absurd h (by decide)
  · rw [returns_eq hframes, decide_eq_false hcaller]
    have held : Held w.outstanding false w.accepts [] := by
      rw [hzero]
      exact .quiet false _ fun _ => rfl
    have hquiet : Inv { w with frames := [], suspended := false } :=
      ⟨held, h.spawned, fun hmem => absurd hmem List.not_mem_nil, fun hon => absurd hon (by simp),
        fun hne => absurd rfl hne, fun _ _ hon => absurd hon (by simp)⟩
    cases caller with
    | enqueue => exact absurd rfl hcaller
    | requestStop => exact hquiet
    | drain => exact hquiet
    | processQueue => exact inv_processQueue held rfl (fun hon => absurd hon (by simp)) fun hon => absurd hon (by simp)

theorem batchWritten_eq (batches : List (List Record)) (inserted : Option ℕ) (w : BatchWriter Record) :
    ∃ stats, w.batchWritten batches inserted = { w with stats := stats } := by
  cases inserted with
  | none => exact ⟨w.stats, rfl⟩
  | some inserted => exact ⟨_, rfl⟩

theorem Inv.checkResume {w : BatchWriter Record} (h : Inv w) (hframes : w.frames = []) : Inv w.checkResume := by
  have hcalm := (hframes ▸ h.held).calm
  refine inv_release (by decide) hframes hcalm.1 h.suspendable h.spawned fun hdue => ?_
  refine inv_processQueue (hframes ▸ h.held) hframes h.suspendable fun hsuspended hpending => ?_
  have := hdue hsuspended
  rw [hpending, List.length_nil] at this
  omega

theorem Inv.step {w : BatchWriter Record} (h : Inv w) {a : Action Record} (hok : Careful w a) : Inv (w.step a) := by
  cases a with
  | enqueue batch => exact h.enqueue hok
  | requestStop => exact h.requestStop hok
  | drain => exact h.drain hok
  | returns => exact h.returns
  | drainTimeout =>
      rw [BatchWriter.step]
      split
      · exact h.drainTimeout ‹_›
      · exact h
  | processQueue =>
      rw [BatchWriter.step]
      split
      · rename_i hframes hspawned
        refine inv_processQueue (hframes ▸ h.held) hframes h.suspendable fun hsuspended hpending => ?_
        have hstopping := (h.spawned hspawned).resolve_left fun hne => hne hpending
        have haccepts : w.accepts = false := by rw [accepts, hstopping]; rfl
        have hcalm := (hframes ▸ h.held).calm
        exact absurd hsuspended (by rw [hcalm.2 haccepts]; decide)
      · exact h
  | written inserted =>
      rw [BatchWriter.step]
      split
      · rename_i batches hframes _
        obtain ⟨stats, hstats⟩ := w.batchWritten_eq batches inserted
        rw [hstats]
        have hwritten : Inv { w with stats := stats } :=
          ⟨h.held, h.spawned, h.suspending, h.suspendable, h.calling, h.idle⟩
        exact hwritten.checkResume hframes
      · exact h

/-! ### When the calls in progress have returned -/

/-- The rest of a caller is about the queue and the coroutine. -/
theorem rest_eq (caller : Frame) (w : BatchWriter Record) :
    ∃ c batches, rest caller w = { w with coroutine := c, pendingBatches := batches } := by
  cases caller with
  | enqueue =>
      obtain ⟨c, hspawn, -⟩ := w.spawn_eq
      exact ⟨_, _, hspawn⟩
  | requestStop => exact ⟨_, _, rfl⟩
  | drain => exact ⟨_, _, rfl⟩
  | processQueue =>
      rw [rest, processQueue]
      split <;> exact ⟨_, _, rfl⟩

theorem rest_outstanding (caller : Frame) (w : BatchWriter Record) : (rest caller w).outstanding = w.outstanding := by
  obtain ⟨c, batches, h⟩ := rest_eq caller w
  rw [h]
  rfl

theorem returns_cons {w : BatchWriter Record} {caller : Frame} {frames : List Frame} (h : w.frames = caller :: frames) :
    w.returns.frames = frames ∧ w.returns.outstanding = w.outstanding ∧ w.returns.accepts = w.accepts ∧
      w.returns.suspended = decide (caller = .enqueue) := by
  obtain ⟨c, batches, hrest⟩ := rest_eq caller { w with frames := frames, suspended := decide (caller = .enqueue) }
  rw [returns_eq h, hrest]
  exact ⟨rfl, rfl, rfl, rfl⟩

theorem unwind_quiet {w : BatchWriter Record} (h : w.frames = []) : w.unwind = w := by
  rw [unwind, h]
  rfl

theorem unwind_cons {w : BatchWriter Record} {caller : Frame} {frames : List Frame} (h : w.frames = caller :: frames) :
    w.unwind = w.returns.unwind := by
  rw [unwind, unwind, (returns_cons h).1, h, List.length_cons, Function.iterate_succ_apply]

theorem unwind_outstanding {w : BatchWriter Record} {frames : List Frame} (h : w.frames = frames) :
    w.unwind.outstanding = w.outstanding ∧ w.unwind.accepts = w.accepts := by
  induction frames generalizing w with
  | nil =>
      rw [unwind_quiet h]
      exact ⟨rfl, rfl⟩
  | cons caller frames ih =>
      obtain ⟨hframes, hsame, haccepts, -⟩ := returns_cons h
      rw [unwind_cons h, (ih hframes).1, (ih hframes).2]
      exact ⟨hsame, haccepts⟩

/-- The outermost call in progress is the last to assign `suspended_`. -/
theorem unwind_suspended {w : BatchWriter Record} (frames : List Frame) {caller : Frame}
    (h : w.frames = frames ++ [caller]) : w.unwind.suspended = decide (caller = .enqueue) := by
  induction frames generalizing w with
  | nil =>
      obtain ⟨hframes, -, -, hsuspended⟩ := returns_cons h
      rw [unwind_cons h, unwind_quiet hframes, hsuspended]
  | cons inner frames ih =>
      rw [List.cons_append] at h
      rw [unwind_cons h]
      exact ih (returns_cons h).1

/-- Once the calls in progress have returned, the invariant holds with none. -/
theorem Inv.unwind {w : BatchWriter Record} (h : Inv w) : Inv w.unwind ∧ w.unwind.frames = [] := by
  by_cases hnil : w.frames = []
  · rw [unwind_quiet hnil]
    exact ⟨h, hnil⟩
  · obtain ⟨caller, hone⟩ : ∃ caller, w.frames = [caller] := by
      rcases h.held.calling hnil with ⟨hone, -⟩ | ⟨caller, -, hone, -⟩
      · exact ⟨_, hone⟩
      · exact ⟨caller, hone⟩
    have hframes := (returns_cons hone).1
    rw [unwind_cons hone, unwind_quiet hframes]
    exact ⟨h.returns, hframes⟩

/-- What the invariant says between the calls. -/
theorem Inv.settled {w : BatchWriter Record} (h : Inv w) (hframes : w.frames = []) : Settled w := by
  have hcalm := (hframes ▸ h.held).calm
  have hoff : w.suspended = false → w.outstanding = 0 := fun hoff => by rw [hcalm.1, hoff]; rfl
  refine ⟨hcalm.1, fun hstop => hoff (hcalm.2 ?_), fun hidle hlow => hoff ?_, fun hdrained batches hcopy inserted => ?_⟩
  · rw [accepts]
    rcases hstop with hstop | hstop <;> rw [hstop]
    · rfl
    · exact Bool.and_false _
  · refine Bool.eq_false_iff.mpr fun hon => ?_
    have := h.idle hframes (Option.not_isSome_iff_eq_none.mp (Bool.eq_false_iff.mp hidle)) hon
    omega
  · obtain ⟨stats, hstats⟩ := w.batchWritten_eq batches inserted
    rw [BatchWriter.step, hframes, hcopy]
    simp only [hstats]
    rw [BatchWriter.checkResume, release]
    split
    · rename_i hdue
      rw [outstanding_resume]
      show w.outstanding - 1 = 0
      rw [hcalm.1, if_pos hdue.2.1]
      rfl
    · rename_i hdue
      rw [rest_outstanding]
      exact hoff (Bool.eq_false_iff.mpr fun hon => hdue ⟨h.suspendable hon, hon, hdrained⟩)

/-! ### The condition is needed -/

theorem Settled.le_one {w : BatchWriter Record} (h : Settled w) : 0 ≤ w.outstanding ∧ w.outstanding ≤ 1 := by
  rw [h.balanced]
  split <;> decide

/-- A suspension **on top of another one, or inside a call**, is never resumed as it should be. -/
theorem Inv.enqueue_unsettled {w : BatchWriter Record} (h : Inv w) {batch : List Record}
    (hbad : ¬ Careful w (.enqueue batch)) : ¬ Settled (w.enqueue batch).unwind := by
  simp only [Careful, not_forall] at hbad
  obtain ⟨haccepts, hsuspendable, hhigh, hbad⟩ := hbad
  have hstep : w.enqueue batch =
      { w with
        pendingBatches := w.pendingBatches ++ [batch]
        upstream := w.upstream ++ [.suspend]
        frames := .enqueue :: w.frames } := by
    rw [BatchWriter.enqueue, if_pos haccepts, checkBackpressure, if_pos]
    refine ⟨hsuspendable, ?_⟩
    rw [List.length_append, List.length_singleton]
    exact hhigh
  have hcount : (w.enqueue batch).outstanding = w.outstanding + 1 := by
    rw [hstep]
    exact outstanding_suspend w (.enqueue :: w.frames)
  intro hsettled
  have hrange := hsettled.le_one.2
  rw [(unwind_outstanding rfl).1, hcount] at hrange
  by_cases hnil : w.frames = []
  · have hcalm := (hnil ▸ h.held).calm
    have hon : w.suspended = true := by
      by_contra hoff
      exact hbad ⟨Bool.eq_false_iff.mpr hoff, hnil⟩
    rw [hcalm.1, if_pos hon] at hrange
    omega
  rcases h.held.calling hnil with ⟨-, hone, -⟩ | ⟨caller, hcaller, hframes, hzero, -⟩
  · omega
  · have hcalls : (w.enqueue batch).frames = [.enqueue] ++ [caller] := by
      rw [hstep, hframes]
      rfl
    have hoff := unwind_suspended [.enqueue] hcalls
    have hbalanced := hsettled.balanced
    rw [(unwind_outstanding rfl).1, hcount, hzero, hoff, decide_eq_false hcaller] at hbalanced
    exact absurd hbalanced (by decide)

/-- A stop inside a call resumes again, **or is followed by the suspension**. -/
theorem Inv.release_unsettled {w : BatchWriter Record} (h : Inv w) (hframes : w.frames ≠ [])
    (w' : BatchWriter Record) {caller : Frame} (hcaller : rest caller w' = w')
    (hsame : w'.outstanding = w.outstanding ∧ w'.frames = w.frames)
    (hheld : w'.suspended = w.suspended ∧ w'.suspendable = w.suspendable) (hstop : w'.accepts = false) :
    ¬ Settled (w'.release True caller).unwind := by
  intro hsettled
  rw [release] at hsettled
  rcases h.held.calling hframes with ⟨-, hone, hoff, -⟩ | ⟨-, -, -, hzero, hon⟩
  · have hnot : ¬ (w'.suspendable = true ∧ w'.suspended = true ∧ True) := by
      rw [hheld.1, hoff]
      exact fun hdue => absurd hdue.2.1 (by decide)
    rw [if_neg hnot, hcaller] at hsettled
    have hstopped : w'.unwind.stopping = true ∨ w'.unwind.draining = true := by
      have := (unwind_outstanding (w := w') rfl).2
      rwa [hstop, accepts, Bool.and_eq_false_iff, Bool.not_eq_false', Bool.not_eq_false'] at this
    have hzero := hsettled.stopped hstopped
    rw [(unwind_outstanding rfl).1, hsame.1, hone] at hzero
    exact absurd hzero (by decide)
  · have hdue : w'.suspendable = true ∧ w'.suspended = true ∧ True :=
      ⟨hheld.2.trans (h.calling hframes), hheld.1.trans hon, trivial⟩
    rw [if_pos hdue] at hsettled
    have hrange := hsettled.le_one.1
    rw [(unwind_outstanding rfl).1, outstanding_resume, hsame.1, hzero] at hrange
    exact absurd hrange (by decide)

theorem Inv.careful_of_settled {w : BatchWriter Record} (h : Inv w) {a : Action Record}
    (hsettled : Settled (w.step a).unwind) : Careful w a := by
  cases a with
  | enqueue batch =>
      by_contra hbad
      exact h.enqueue_unsettled hbad hsettled
  | requestStop =>
      by_contra hframes
      exact h.release_unsettled hframes { w with stopping := true, pendingBatches := [] } rfl ⟨rfl, rfl⟩ ⟨rfl, rfl⟩ rfl
        hsettled
  | drain =>
      by_contra hframes
      exact h.release_unsettled hframes { w with draining := true } rfl ⟨rfl, rfl⟩ ⟨rfl, rfl⟩ (Bool.and_false _)
        hsettled
  | returns => trivial
  | drainTimeout => trivial
  | processQueue => trivial
  | written inserted => trivial

theorem careful_of_run {ops : List (Action Record)} {w : BatchWriter Record} (h : Inv w)
    (hsettled : ∀ pre, pre <+: ops → Settled (Runs.run step w pre).unwind) : Runs.Along Careful step w ops := by
  induction ops generalizing w with
  | nil => trivial
  | cons a ops ih =>
      have hok : Careful w a := h.careful_of_settled (hsettled [a] (List.prefix_append [a] ops))
      refine ⟨hok, ih (h.step hok) fun pre hpre => hsettled (a :: pre) ?_⟩
      exact List.cons_prefix_cons.mpr ⟨rfl, hpre⟩

/-- **Backpressure is balanced exactly where the run is careful**: the calls in progress returned, every point of the
run has at most one suspension outstanding, it is the one that `suspended_` tells of, and none is left after a stop, a
drain, a write that leaves few batches, or the end of the coroutine. -/
theorem settled_iff (config : BackpressureConfig) (suspendable : Bool) (ops : List (Action Record)) :
    (∀ pre, pre <+: ops → Settled (Runs.run step { config, suspendable : BatchWriter Record } pre).unwind) ↔
      Runs.Along Careful step { config, suspendable : BatchWriter Record } ops := by
  constructor
  · exact careful_of_run (inv_init config suspendable)
  · rintro hok pre ⟨tail, rfl⟩
    have hinv : Inv (Runs.run step { config, suspendable : BatchWriter Record } pre) :=
      Runs.run_preserves (fun w a (h : Inv w) (hok : Careful w a) => h.step hok) (inv_init config suspendable)
        ((Runs.along_append _ _ _ _ _).mp hok).1
    exact hinv.unwind.1.settled hinv.unwind.2

/-- **Two batches above the mark** suspend twice, and the write that empties the queue resumes once: the writer is
idle, and the upstream stays suspended. -/
theorem left_suspended :
    ¬ ∀ (config : BackpressureConfig) (ops : List (Action ℕ)),
      Settled (Runs.run step { config, suspendable := true } ops).unwind := by
  intro h
  have hidle := (h { highWaterMark := 2, lowWaterMark := 1 }
    [.enqueue [], .enqueue [], .enqueue [], .returns, .enqueue [], .returns, .processQueue, .written (some 0),
      .returns]).idle
  exact absurd (hidle (by decide) (by decide)) (by decide)

/-! ### A counting upstream -/

/-- A call on a client as the upstream. -/
def applyCall (c : Client.StreamingClient) : UpstreamCall → Client.StreamingClient
  | .suspend => c.suspend
  | .resume => c.resume

theorem suspendCount_applyCall (c : Client.StreamingClient) (call : UpstreamCall) :
    (applyCall c call).suspendCount = c.suspendCount + if call = .suspend then 1 else -1 := by
  have hsuspend (c : Client.StreamingClient) : c.pipelineSuspend.suspendCount = c.suspendCount := by
    rw [Client.StreamingClient.pipelineSuspend]
    split <;> rfl
  have hresume (c : Client.StreamingClient) : c.pipelineResume.suspendCount = c.suspendCount := by
    rw [Client.StreamingClient.pipelineResume]
    split <;> rfl
  cases call with
  | suspend =>
      show c.suspend.suspendCount = c.suspendCount + 1
      rw [Client.StreamingClient.suspend]
      split
      · exact hsuspend _
      · rfl
  | resume =>
      show c.resume.suspendCount = c.suspendCount - 1
      rw [Client.StreamingClient.resume]
      split
      · exact hresume _
      · rfl

/-- **The client's count is what is outstanding**, next to the suspensions of others. -/
theorem suspendCount_upstream (c : Client.StreamingClient) (w : BatchWriter Record) :
    (w.upstream.foldl applyCall c).suspendCount = c.suspendCount + w.outstanding := by
  rw [outstanding]
  induction w.upstream generalizing c with
  | nil => exact (Int.add_zero _).symm
  | cons call calls ih =>
      rw [List.foldl_cons, ih, suspendCount_applyCall, List.count_cons, List.count_cons]
      cases call with
      | suspend => simp; omega
      | resume => simp; omega

end BatchWriter

end DbnPipe.DbWriter
