import DbnPipe.DbWriter.BatchWriter

/-!
# The queue of the batch writer

What `dbwriter::BatchWriter` does with the batches that it takes, over every run of calls, also from inside a call of
the upstream.

* `History` — the batches accepted, the groups handed to `write_batch`, what was discarded, and **how each group ended**;
* `record` — what an action adds;
* `Kept` — what was accepted is what was handed on, what was discarded and what waits, **in this order**;
* `batches_in_order` — after every run;
* `drain_ends` — what `drain` promises: behind **two ends of `write_batch`** every batch was written.
-/

namespace DbnPipe.DbWriter

/-- What has happened to the batches. -/
structure History (Record : Type*) where
  accepted : List (List Record) := []
  taken : List (List (List Record)) := []
  discarded : List (List Record) := []
  finished : List (List (List Record) × Option ℕ) := []

namespace BatchWriter

variable {Record : Type*}

/-! ### What an action does to the batches -/

/-- The batches that `enqueue` takes. -/
def accepted (w : BatchWriter Record) : Action Record → List (List Record)
  | .enqueue batch => if w.accepts then [batch] else []
  | _ => []

/-- The batches that `request_stop` discards. -/
def discarded (w : BatchWriter Record) : Action Record → List (List Record)
  | .requestStop => w.pendingBatches
  | _ => []

/-- The group that went from the queue. -/
def left (w w' : BatchWriter Record) : List (List (List Record)) :=
  if w'.pendingBatches = [] ∧ w.pendingBatches ≠ [] then [w.pendingBatches] else []

/-- The group that the coroutine takes: all that waits. -/
def taken (w : BatchWriter Record) : Action Record → List (List (List Record))
  | .returns => w.left (w.step .returns)
  | .processQueue => w.left (w.step .processQueue)
  | .written inserted => w.left (w.step (.written inserted))
  | _ => []

/-- The group whose `write_batch` ends. -/
def finished (w : BatchWriter Record) : Action Record → List (List (List Record) × Option ℕ)
  | .written inserted =>
    match w.frames, w.coroutine with
    | [], some (.writeBatch batches) => [(batches, inserted)]
    | _, _ => []
  | _ => []

/-- What an action adds. -/
def record (w : BatchWriter Record) (a : Action Record) (h : History Record) : History Record where
  accepted := h.accepted ++ w.accepted a
  taken := h.taken ++ w.taken a
  discarded := h.discarded ++ w.discarded a
  finished := h.finished ++ w.finished a

/-- One action, on the record. -/
def stepRecorded (s : BatchWriter Record × History Record) (a : Action Record) : BatchWriter Record × History Record :=
  (s.1.step a, s.1.record a s.2)

/-- The group that `write_batch` has. -/
def current (w : BatchWriter Record) : List (List (List Record)) :=
  match w.coroutine with
  | some (.writeBatch batches) => if .processQueue ∈ w.frames then [] else [batches]
  | _ => []

/-- The statistics of the groups that were written. -/
def tally (finished : List (List (List Record) × Option ℕ)) : WriteStats :=
  let written := finished.filterMap fun group => group.2.map (group.1, ·)
  { copiesCompleted := written.length
    batchesCoalesced := (written.map fun group => group.1.length).sum
    rowsCopied := (written.map fun group => (group.1.map List.length).sum).sum
    rowsInserted := (written.map Prod.snd).sum }

/-! ### The invariant -/

/-- **The queue is a queue**: nothing is lost, doubled or overtaken. -/
structure Kept (w : BatchWriter Record) (h : History Record) : Prop where
  order : h.accepted = h.taken.flatten ++ h.discarded ++ w.pendingBatches
  once : h.taken = h.finished.map Prod.fst ++ w.current
  nonempty : ∀ group ∈ h.taken, group ≠ []
  stopped : h.discarded ≠ [] → w.stopping = true
  idle : w.coroutine = none → w.stopping = false → w.pendingBatches = [] ∨ .enqueue ∈ w.frames
  counted : w.stats = tally h.finished
  inner : w.frames.count .processQueue ≤ 1

variable {w w' : BatchWriter Record} {h : History Record}

theorem left_same (hpending : w'.pendingBatches = w.pendingBatches) : w.left w' = [] := by
  rw [left, if_neg]
  rintro ⟨hnil, hne⟩
  exact hne (hpending.symm.trans hnil)

theorem current_congr (hcoroutine : w'.coroutine = w.coroutine)
    (hframes : Frame.processQueue ∈ w'.frames ↔ Frame.processQueue ∈ w.frames) : w'.current = w.current := by
  rw [current, current, hcoroutine]
  simp only [hframes]

theorem current_calling (hframes : Frame.processQueue ∈ w.frames) : w.current = [] := by
  rw [current]
  split
  · rw [if_pos hframes]
  · rfl

/-- A coroutine that has no group yet. -/
theorem current_spawned (hcoroutine : w.coroutine = some .spawned) : w.current = [] := by
  rw [current, hcoroutine]

theorem current_writeBatch {batches : List (List Record)} (hcoroutine : w.coroutine = some (.writeBatch batches))
    (hframes : Frame.processQueue ∉ w.frames) : w.current = [batches] := by
  rw [current, hcoroutine]
  exact if_neg hframes

theorem tally_concat (finished : List (List (List Record) × Option ℕ)) (batches : List (List Record))
    (inserted : Option ℕ) (hcounted : w.stats = tally finished) :
    (w.batchWritten batches inserted).stats = tally (finished ++ [(batches, inserted)]) := by
  cases inserted with
  | none =>
    rw [batchWritten, hcounted]
    simp only [tally, List.filterMap_append, List.filterMap_cons, Option.map_none, List.filterMap_nil, List.append_nil]
  | some inserted =>
    rw [batchWritten]
    simp only [hcounted, tally, List.filterMap_append, List.filterMap_cons, Option.map_some, List.filterMap_nil,
      List.length_append, List.map_append, List.sum_append, List.map_cons, List.map_nil, List.sum_cons, List.sum_nil,
      List.length_cons, List.length_nil, Nat.zero_add, Nat.add_zero]

/-- The loop of the coroutine takes all that waits, or the coroutine ends. -/
theorem processQueue_cases (w : BatchWriter Record) :
    (w.pendingBatches ≠ [] ∧ w.stopping = false ∧ w.processQueue =
        { w with coroutine := some (.writeBatch w.pendingBatches), pendingBatches := [] }) ∨
      ((w.pendingBatches = [] ∨ w.stopping = true) ∧ w.processQueue = { w with coroutine := none }) := by
  rw [processQueue]
  split
  · rename_i hgo
    exact .inl ⟨hgo.1, hgo.2, rfl⟩
  · rename_i hend
    refine .inr ⟨?_, rfl⟩
    by_cases hpending : w.pendingBatches = []
    · exact .inl hpending
    · refine .inr ?_
      cases hstopping : w.stopping with
      | true => rfl
      | false => exact absurd ⟨hpending, hstopping⟩ hend

/-- **The loop goes on** where the coroutine has no group. -/
theorem kept_processQueue (order : h.accepted = h.taken.flatten ++ h.discarded ++ w.pendingBatches)
    (once : h.taken = h.finished.map Prod.fst) (nonempty : ∀ group ∈ h.taken, group ≠ [])
    (stopped : h.discarded ≠ [] → w.stopping = true) (counted : w.stats = tally h.finished)
    (hframes : Frame.processQueue ∉ w.frames) :
    Kept w.processQueue { h with taken := h.taken ++ w.left w.processQueue } := by
  have hinner : w.frames.count .processQueue ≤ 1 := by
    rw [List.count_eq_zero.mpr hframes]
    exact Nat.zero_le 1
  rcases w.processQueue_cases with ⟨hne, hgoes, heq⟩ | ⟨hend, heq⟩
  · have hleft : w.left w.processQueue = [w.pendingBatches] := by
      rw [heq, left]
      exact if_pos ⟨rfl, hne⟩
    have hnone : h.discarded = [] := by
      by_contra hsome
      exact absurd ((stopped hsome).symm.trans hgoes) (by decide)
    rw [hleft, heq]
    refine ⟨?_, ?_, ?_, stopped, fun hcoroutine => absurd hcoroutine (by simp), counted, hinner⟩
    · show h.accepted = (h.taken ++ [w.pendingBatches]).flatten ++ h.discarded ++ []
      rw [order, hnone, List.flatten_append, List.append_nil, List.append_nil, List.append_nil, List.flatten_singleton]
    · have hcurrent : current { w with coroutine := some (.writeBatch w.pendingBatches), pendingBatches := [] } =
          [w.pendingBatches] := current_writeBatch rfl hframes
      rw [hcurrent, ← once]
    · intro group hgroup
      rcases List.mem_append.mp hgroup with hin | hin
      · exact nonempty group hin
      · rwa [List.mem_singleton.mp hin]
  · rw [left_same (by rw [heq]), heq, List.append_nil]
    refine ⟨order, once.trans (List.append_nil _).symm, nonempty, stopped, fun _ hgoes => .inl ?_, counted, hinner⟩
    exact hend.resolve_right fun hstopping => absurd (hstopping.symm.trans hgoes) (by decide)

/-- Where an action leaves the queue as it is. -/
theorem Kept.quiet (hk : Kept w h) (hpending : w'.pendingBatches = w.pendingBatches) (hcurrent : w'.current = w.current)
    (hstopping : w.stopping = true → w'.stopping = true)
    (hidle : w'.coroutine = none → w'.stopping = false → w'.pendingBatches = [] ∨ .enqueue ∈ w'.frames)
    (hstats : w'.stats = w.stats) (hinner : w'.frames.count .processQueue ≤ 1) : Kept w' h where
  order := by rw [hpending, hk.order]
  once := by rw [hcurrent, hk.once]
  nonempty := hk.nonempty
  stopped hsome := hstopping (hk.stopped hsome)
  idle := hidle
  counted := hstats.trans hk.counted
  inner := hinner

/-- A batch waits, and there will be a coroutine for it. -/
theorem Kept.queued (hk : Kept w h) {batch : List Record} (hpending : w'.pendingBatches = w.pendingBatches ++ [batch])
    (hcurrent : w'.current = w.current) (hstopping : w'.stopping = w.stopping)
    (hcalling : w'.coroutine = none → .enqueue ∈ w'.frames) (hstats : w'.stats = w.stats)
    (hinner : w'.frames.count .processQueue ≤ 1) : Kept w' { h with accepted := h.accepted ++ [batch] } where
  order := by
    show h.accepted ++ [batch] = _
    rw [hk.order, hpending, List.append_assoc _ w.pendingBatches]
  once := by rw [hcurrent, ← hk.once]
  nonempty := hk.nonempty
  stopped hsome := hstopping.trans (hk.stopped hsome)
  idle hnone _ := .inr (hcalling hnone)
  counted := hstats.trans hk.counted
  inner := hinner

/-- `Resume`, or not, of a caller that is not the coroutine and does nothing behind it. -/
theorem kept_release {due : Prop} [Decidable due] {caller : Frame} (hk : Kept w h) (hcaller : caller ≠ .processQueue)
    (hrest : rest caller w = w) : Kept (w.release due caller) h := by
  rw [release]
  split
  · refine hk.quiet rfl (current_congr rfl ?_) id (fun hcoroutine hgoes => ?_) rfl ?_
    · exact List.mem_cons.trans (or_iff_right hcaller.symm)
    · exact (hk.idle hcoroutine hgoes).imp_right (List.mem_cons_of_mem caller)
    · exact (List.count_cons_of_ne hcaller).trans_le hk.inner
  · rwa [hrest]

/-- Behind `enqueue` there is a coroutine, with the group that it had. -/
theorem spawn_current (w : BatchWriter Record) :
    ∃ coroutine, w.spawn = { w with coroutine := some coroutine } ∧
      current { w with coroutine := some coroutine } = w.current := by
  rw [spawn, writing]
  cases hcoroutine : w.coroutine with
  | none =>
    have hcurrent : w.current = [] := by rw [current, hcoroutine]
    exact ⟨.spawned, rfl, (current_spawned rfl).trans hcurrent.symm⟩
  | some coroutine => exact ⟨coroutine, (if_pos rfl).trans (by rw [← hcoroutine]), current_congr hcoroutine.symm Iff.rfl⟩

theorem kept_enqueue (hk : Kept w h) (batch : List Record) :
    Kept (w.enqueue batch) (w.record (.enqueue batch) h) := by
  have hrecord : w.record (.enqueue batch) h = { h with accepted := h.accepted ++ w.accepted (.enqueue batch) } := by
    simp only [record, taken, discarded, finished, List.append_nil]
  rw [hrecord, enqueue, accepted]
  split
  · rw [checkBackpressure]
    split
    · refine hk.queued rfl (current_congr rfl ?_) rfl (fun _ => List.mem_cons_self) rfl ?_
      · exact List.mem_cons.trans (or_iff_right Frame.noConfusion)
      · exact (List.count_cons_of_ne (by decide)).trans_le hk.inner
    · obtain ⟨coroutine, hspawn, hcurrent⟩ := spawn_current { w with pendingBatches := w.pendingBatches ++ [batch] }
      rw [rest, hspawn]
      exact hk.queued rfl (hcurrent.trans (current_congr rfl Iff.rfl)) rfl (fun hnone => absurd hnone (by simp)) rfl
        hk.inner
  · rw [List.append_nil]
    exact hk

theorem kept_requestStop (hk : Kept w h) : Kept w.requestStop (w.record .requestStop h) := by
  have hrecord : w.record .requestStop h = { h with discarded := h.discarded ++ w.pendingBatches } := by
    simp only [record, taken, discarded, accepted, finished, List.append_nil]
  rw [hrecord]
  refine kept_release (w := { w with stopping := true, pendingBatches := [] }) ?_ (by decide) rfl
  refine ⟨?_, hk.once, hk.nonempty, fun _ => rfl, fun _ _ => .inl rfl, hk.counted, hk.inner⟩
  show h.accepted = h.taken.flatten ++ (h.discarded ++ w.pendingBatches) ++ []
  rw [hk.order, List.append_nil, List.append_assoc]

theorem kept_drain (hk : Kept w h) : Kept w.drain h :=
  kept_release (w := { w with draining := true })
    (hk.quiet rfl (current_congr rfl Iff.rfl) id hk.idle rfl hk.inner) (by decide) rfl

theorem kept_drainTimeout (hk : Kept w h) : Kept w.drainTimeout h := by
  rw [drainTimeout]
  split
  · exact hk.quiet rfl (current_congr rfl Iff.rfl) (fun _ => rfl) (fun _ hgoes => absurd hgoes (by simp)) rfl hk.inner
  · exact hk

/-- **A call of the upstream returns.** -/
theorem kept_returns (hk : Kept w h) : Kept w.returns { h with taken := h.taken ++ w.left w.returns } := by
  have hquiet : w.returns.pendingBatches = w.pendingBatches → Kept w.returns h →
      Kept w.returns { h with taken := h.taken ++ w.left w.returns } := fun hpending hkept => by
    rwa [left_same hpending, List.append_nil]
  have hreturns : ∀ {caller frames}, w.frames = caller :: frames →
      w.returns = rest caller { w with frames := frames, suspended := decide (caller = .enqueue) } := fun hframes => by
    rw [returns, hframes]
  cases hframes : w.frames with
  | nil =>
    have hself : w.returns = w := by rw [returns, hframes]
    rw [hself] at hquiet ⊢
    exact hquiet rfl hk
  | cons caller frames =>
    have hinner := hk.inner
    rw [hframes] at hinner
    -- behind a caller that is not the coroutine
    have hcalm : caller ≠ .processQueue → (caller = .enqueue → w.coroutine ≠ none) →
        Kept { w with frames := frames, suspended := decide (caller = .enqueue) } h := fun hcaller hspawned => by
      refine hk.quiet rfl (current_congr rfl ?_) id (fun hnone hgoes => ?_) rfl ?_
      · rw [hframes]
        exact (List.mem_cons.trans (or_iff_right hcaller.symm)).symm
      · refine (hk.idle hnone hgoes).imp_right fun hin => ?_
        rw [hframes] at hin
        exact (List.mem_cons.mp hin).resolve_left fun heq => hspawned heq.symm hnone
      · exact (List.count_cons_of_ne hcaller).symm.trans_le hinner
    cases caller with
    | enqueue =>
      obtain ⟨coroutine, hspawn, hcurrent⟩ := spawn_current { w with frames := frames, suspended := true }
      have heq : w.returns = { w with frames := frames, suspended := true, coroutine := some coroutine } :=
        (hreturns hframes).trans hspawn
      rw [heq] at hquiet ⊢
      refine hquiet rfl (hk.quiet rfl (hcurrent.trans (current_congr rfl ?_)) id (fun hnone => absurd hnone (by simp)) rfl ?_)
      · rw [hframes]
        exact (List.mem_cons.trans (or_iff_right Frame.noConfusion)).symm
      · exact (List.count_cons_of_ne (by decide)).symm.trans_le hinner
    | requestStop =>
      rw [hreturns hframes] at hquiet ⊢
      exact hquiet rfl (hcalm (by decide) (fun heq => absurd heq (by decide)))
    | drain =>
      rw [hreturns hframes] at hquiet ⊢
      exact hquiet rfl (hcalm (by decide) (fun heq => absurd heq (by decide)))
    | processQueue =>
      have hleft : ∀ w' : BatchWriter Record, left { w with frames := frames, suspended := false } w' = w.left w' :=
        fun _ => rfl
      have hnone : Frame.processQueue ∉ frames := by
        rw [List.count_cons_self] at hinner
        exact List.count_eq_zero.mp (by omega)
      have hin : Frame.processQueue ∈ w.frames := by
        rw [hframes]
        exact List.mem_cons_self
      have honce := hk.once
      rw [current_calling hin, List.append_nil] at honce
      have hgoes := kept_processQueue (w := { w with frames := frames, suspended := false }) hk.order honce hk.nonempty
        hk.stopped hk.counted hnone
      rw [hleft] at hgoes
      rw [hreturns hframes]
      exact hgoes

/-- The coroutine is started. -/
theorem kept_spawned (hk : Kept w h) :
    Kept (w.step .processQueue) { h with taken := h.taken ++ w.left (w.step .processQueue) } := by
  by_cases hgoes : w.frames = [] ∧ w.coroutine = some .spawned
  · have hstep : w.step .processQueue = w.processQueue := by rw [step, hgoes.1, hgoes.2]
    have honce := hk.once
    rw [current_spawned hgoes.2, List.append_nil] at honce
    rw [hstep]
    exact kept_processQueue hk.order honce hk.nonempty hk.stopped hk.counted (by rw [hgoes.1]; exact List.not_mem_nil)
  · have hstep : w.step .processQueue = w := by
      rw [step]
      split
      · rename_i hframes hcoroutine
        exact absurd ⟨hframes, hcoroutine⟩ hgoes
      · rfl
    rw [hstep, left_same rfl, List.append_nil]
    exact hk

/-- **`write_batch` ends.** -/
theorem kept_written (hk : Kept w h) (inserted : Option ℕ) :
    Kept (w.step (.written inserted)) (w.record (.written inserted) h) := by
  have hrecord : w.record (.written inserted) h = { h with
      taken := h.taken ++ w.left (w.step (.written inserted)),
      finished := h.finished ++ w.finished (.written inserted) } := by
    simp only [record, taken, accepted, discarded, List.append_nil]
  by_cases hgoes : ∃ batches, w.frames = [] ∧ w.coroutine = some (.writeBatch batches)
  · obtain ⟨batches, hframes, hcoroutine⟩ := hgoes
    have hstep : w.step (.written inserted) = (w.batchWritten batches inserted).checkResume := by
      rw [step, hframes, hcoroutine]
    have hfinished : w.finished (.written inserted) = [(batches, inserted)] := by rw [finished, hframes, hcoroutine]
    have hcalm : Frame.processQueue ∉ w.frames := by
      rw [hframes]
      exact List.not_mem_nil
    have hcounted := tally_concat h.finished batches inserted hk.counted
    obtain ⟨stats, hw⟩ := batchWritten_eq batches inserted w
    rw [hw] at hcounted
    have honce : h.taken = (h.finished ++ [(batches, inserted)]).map Prod.fst := by
      rw [hk.once, current_writeBatch hcoroutine hcalm, List.map_append]
      rfl
    rw [hrecord, hstep, hfinished, hw, checkResume, release]
    split
    · -- the upstream is resumed, and the coroutine is not on yet
      rw [left_same (by rfl), List.append_nil]
      refine ⟨hk.order, ?_, hk.nonempty, hk.stopped, fun hnone => absurd (hcoroutine.symm.trans hnone) (by simp),
        hcounted, ?_⟩
      · rw [current_calling List.mem_cons_self, List.append_nil]
        exact honce
      · show (Frame.processQueue :: w.frames).count .processQueue ≤ 1
        rw [hframes]
        decide
    · exact kept_processQueue (w := { w with stats := stats })
        (h := { h with finished := h.finished ++ [(batches, inserted)] }) hk.order honce hk.nonempty hk.stopped hcounted
        hcalm
  · have hstep : w.step (.written inserted) = w := by
      rw [step]
      split
      · rename_i batches hframes hcoroutine
        exact absurd ⟨batches, hframes, hcoroutine⟩ hgoes
      · rfl
    have hfinished : w.finished (.written inserted) = [] := by
      rw [finished]
      split
      · rename_i batches hframes hcoroutine
        exact absurd ⟨batches, hframes, hcoroutine⟩ hgoes
      · rfl
    rw [hrecord, hstep, hfinished, left_same rfl, List.append_nil, List.append_nil]
    exact hk

/-- **Every action keeps the queue.** -/
theorem Kept.step (hk : Kept w h) (a : Action Record) : Kept (w.step a) (w.record a h) := by
  have hsame : w.accepted a = [] → w.discarded a = [] → w.finished a = [] →
      w.record a h = { h with taken := h.taken ++ w.taken a } := fun ha hd hf => by
    rw [record, ha, hd, hf, List.append_nil, List.append_nil, List.append_nil]
  have hnothing : w.record a h = { h with taken := h.taken ++ w.taken a } → w.taken a = [] → w.record a h = h :=
    fun hrecord htaken => by rw [hrecord, htaken, List.append_nil]
  cases a with
  | enqueue batch => exact kept_enqueue hk batch
  | requestStop => exact kept_requestStop hk
  | drain =>
    rw [hnothing (hsame rfl rfl rfl) rfl]
    exact kept_drain hk
  | returns =>
    rw [hsame rfl rfl rfl]
    exact kept_returns hk
  | drainTimeout =>
    rw [hnothing (hsame rfl rfl rfl) rfl, BatchWriter.step]
    split
    · exact kept_drainTimeout hk
    · exact hk
  | processQueue =>
    rw [hsame rfl rfl rfl]
    exact kept_spawned hk
  | written inserted => exact kept_written hk inserted

/-! ### Every run -/

/-- The writer and its record, behind the actions. -/
def recorded (config : BackpressureConfig) (suspendable : Bool) (actions : List (Action Record)) :
    BatchWriter Record × History Record :=
  Runs.run stepRecorded ({ config, suspendable }, {}) actions

/-- The record does not change what happens. -/
theorem recorded_fst (config : BackpressureConfig) (suspendable : Bool) (actions : List (Action Record)) :
    (recorded config suspendable actions).1 = Runs.run step { config, suspendable } actions := by
  rw [recorded]
  generalize ({ config, suspendable } : BatchWriter Record) = w
  generalize ({} : History Record) = h
  induction actions generalizing w h with
  | nil => rfl
  | cons a actions ih => exact ih (w.step a) (w.record a h)

theorem kept_recorded (config : BackpressureConfig) (suspendable : Bool) (actions : List (Action Record)) :
    Kept (recorded config suspendable actions).1 (recorded config suspendable actions).2 := by
  have hinit : Kept ({ config, suspendable } : BatchWriter Record) {} :=
    ⟨rfl, rfl, fun _ hin => absurd hin List.not_mem_nil, fun hsome => absurd rfl hsome, fun _ _ => .inl rfl, rfl,
      Nat.zero_le 1⟩
  have hstep : ∀ (s : BatchWriter Record × History Record) (a : Action Record), Kept s.1 s.2 →
      Kept (stepRecorded s a).1 (stepRecorded s a).2 := fun _ a hk => hk.step a
  exact Runs.run_invariant hstep hinit actions

/-- **The batches go to `write_batch` in the order in which they were accepted**, each once and none empty-handed; only
`request_stop` discards, and behind it nothing is handed on; the statistics are those of the groups that were written;
and where nothing runs and nobody stopped, nothing waits. -/
theorem batches_in_order (config : BackpressureConfig) (suspendable : Bool) (actions : List (Action Record)) :
    let s := recorded config suspendable actions
    s.2.accepted = (s.2.finished.map Prod.fst ++ s.1.current).flatten ++ s.2.discarded ++ s.1.pendingBatches ∧
      (∀ group ∈ s.2.finished.map Prod.fst ++ s.1.current, group ≠ []) ∧
      (s.2.discarded ≠ [] → s.1.stopping = true) ∧
      s.1.stats = tally s.2.finished ∧
      (s.1.writing = false → s.1.stopping = false → s.1.frames = [] → s.1.pendingBatches = []) := by
  intro s
  have hk : Kept s.1 s.2 := kept_recorded config suspendable actions
  have hidle : s.1.writing = false → s.1.coroutine = none := by
    intro hwriting
    rw [writing] at hwriting
    exact Option.not_isSome_iff_eq_none.mp (ne_true_of_eq_false hwriting)
  rw [← hk.once]
  refine ⟨hk.order, hk.nonempty, hk.stopped, hk.counted, fun hwriting hgoes hframes => ?_⟩
  refine (hk.idle (hidle hwriting) hgoes).resolve_right fun hin => ?_
  rw [hframes] at hin
  exact absurd hin List.not_mem_nil

/-! ### The end of `drain` -/

/-- No call of the upstream is in progress, and nobody stopped. -/
def Calm (w : BatchWriter Record) : Prop := w.frames = [] ∧ w.stopping = false

/-- An end of `write_batch`, with the upstream resumed where it is. -/
def ending (inserted : Option ℕ) : List (Action Record) := [.written inserted, .returns]

theorem step_returns_calm (hcalm : Calm w) : w.step .returns = w := by
  show w.returns = w
  rw [returns, hcalm.1]

theorem calm_processQueue (hcalm : Calm w) : Calm w.processQueue := by
  rcases w.processQueue_cases with ⟨_, _, heq⟩ | ⟨_, heq⟩ <;> exact heq ▸ hcalm

/-- Behind an end of `write_batch` the loop goes on with what waits. -/
theorem run_ending (hcalm : Calm w) {batches : List (List Record)} (hcoroutine : w.coroutine = some (.writeBatch batches))
    (inserted : Option ℕ) : ∃ w', w'.pendingBatches = w.pendingBatches ∧ Calm w' ∧
      Runs.run step w (ending inserted) = w'.processQueue := by
  have hstep : w.step (.written inserted) = (w.batchWritten batches inserted).checkResume := by
    rw [step, hcalm.1, hcoroutine]
  obtain ⟨stats, hw⟩ := batchWritten_eq batches inserted w
  rw [ending, Runs.run_cons, Runs.run_cons, Runs.run_nil, hstep, hw, checkResume, release]
  split
  · refine ⟨{ w with stats := stats, upstream := w.upstream ++ [.resume], frames := w.frames, suspended := false }, rfl,
      hcalm, rfl⟩
  · refine ⟨{ w with stats := stats }, rfl, hcalm, ?_⟩
    exact step_returns_calm (calm_processQueue (w := { w with stats := stats }) hcalm)

/-- Where nothing waits, the coroutine ends, at the latest behind an end of `write_batch`. -/
theorem ending_ends (hcalm : Calm w) (hspawned : w.coroutine ≠ some .spawned)
    (hpending : w.coroutine ≠ none → w.pendingBatches = []) (inserted : Option ℕ) :
    (Runs.run step w (ending inserted)).coroutine = none ∧ Calm (Runs.run step w (ending inserted)) := by
  cases hcoroutine : w.coroutine with
  | none =>
    have hstep : w.step (.written inserted) = w := by rw [step, hcalm.1, hcoroutine]
    rw [ending, Runs.run_cons, Runs.run_cons, Runs.run_nil, hstep, step_returns_calm hcalm]
    exact ⟨hcoroutine, hcalm⟩
  | some coroutine =>
    cases coroutine with
    | spawned => exact absurd hcoroutine hspawned
    | writeBatch batches =>
      obtain ⟨w', hpending', hcalm', hrun⟩ := run_ending hcalm hcoroutine inserted
      have hnil := hpending'.trans (hpending (by rw [hcoroutine]; simp))
      rw [hrun]
      refine ⟨?_, calm_processQueue hcalm'⟩
      rcases w'.processQueue_cases with ⟨hne, _, _⟩ | ⟨_, heq⟩
      · exact absurd hnil hne
      · rw [heq]

/-- Behind the start of the coroutine, and behind an end of `write_batch`, nothing waits that it does not have. -/
theorem processQueue_takes (w : BatchWriter Record) :
    w.processQueue.coroutine ≠ some .spawned ∧ (w.processQueue.coroutine ≠ none → w.processQueue.pendingBatches = []) := by
  rcases w.processQueue_cases with ⟨_, _, heq⟩ | ⟨_, heq⟩
  · rw [heq]
    exact ⟨fun hspawned => by simp at hspawned, fun _ => rfl⟩
  · rw [heq]
    exact ⟨fun hspawned => by simp at hspawned, fun hsome => absurd rfl hsome⟩

/-- The start of the coroutine, and two ends of `write_batch`. -/
def endings (inserted inserted' : Option ℕ) : List (Action Record) :=
  .processQueue :: ending inserted ++ ending inserted'

theorem endings_end (hcalm : Calm w) (inserted inserted' : Option ℕ) :
    (Runs.run step w (endings inserted inserted')).coroutine = none ∧
      Calm (Runs.run step w (endings inserted inserted')) := by
  rw [endings, List.cons_append, Runs.run_cons, Runs.run_append]
  cases hcoroutine : w.coroutine with
  | none =>
    have hstep : w.step .processQueue = w := by rw [step, hcalm.1, hcoroutine]
    rw [hstep]
    obtain ⟨hnone, hcalm'⟩ := ending_ends hcalm (by rw [hcoroutine]; simp) (fun hsome => absurd hcoroutine hsome) inserted
    exact ending_ends hcalm' (by rw [hnone]; simp) (fun hsome => absurd hnone hsome) inserted'
  | some coroutine =>
    cases coroutine with
    | spawned =>
      have hstep : w.step .processQueue = w.processQueue := by rw [step, hcalm.1, hcoroutine]
      rw [hstep]
      obtain ⟨hspawned, hpending⟩ := w.processQueue_takes
      obtain ⟨hnone, hcalm'⟩ := ending_ends (calm_processQueue hcalm) hspawned hpending inserted
      exact ending_ends hcalm' (by rw [hnone]; simp) (fun hsome => absurd hnone hsome) inserted'
    | writeBatch batches =>
      have hstep : w.step .processQueue = w := by rw [step, hcalm.1, hcoroutine]
      rw [hstep]
      obtain ⟨w', _, hcalm', hrun⟩ := run_ending hcalm hcoroutine inserted
      rw [hrun]
      obtain ⟨hspawned, hpending⟩ := w'.processQueue_takes
      exact ending_ends (calm_processQueue hcalm') hspawned hpending inserted'

/-- **What `drain` waits for comes**, from every state in which nobody stopped: where nothing more is accepted, two ends
of `write_batch` are enough, and then all that was ever accepted has gone through it, in order. -/
theorem drain_ends (config : BackpressureConfig) (suspendable : Bool) (actions : List (Action Record))
    (hcalm : Calm (recorded config suspendable actions).1) (inserted inserted' : Option ℕ) :
    (recorded config suspendable (actions ++ endings inserted inserted')).1.writing = false ∧
      (recorded config suspendable (actions ++ endings inserted inserted')).1.pendingBatches = [] ∧
      (recorded config suspendable (actions ++ endings inserted inserted')).2.accepted =
        ((recorded config suspendable (actions ++ endings inserted inserted')).2.finished.map Prod.fst).flatten := by
  have hkept := kept_recorded config suspendable (actions ++ endings inserted inserted')
  have hends := endings_end hcalm inserted inserted'
  rw [recorded_fst, ← Runs.run_append, ← recorded_fst] at hends
  generalize recorded config suspendable (actions ++ endings inserted inserted') = s at hkept hends ⊢
  obtain ⟨hnone, hframes, hgoes⟩ := hends
  have hpending : s.1.pendingBatches = [] := (hkept.idle hnone hgoes).resolve_right fun hin => by
    rw [hframes] at hin
    exact absurd hin List.not_mem_nil
  have hdiscarded : s.2.discarded = [] := by
    by_contra hsome
    exact absurd ((hkept.stopped hsome).symm.trans hgoes) (by decide)
  have hcurrent : s.1.current = [] := by rw [current, hnone]
  refine ⟨by rw [writing, hnone]; rfl, hpending, ?_⟩
  rw [hkept.order, hdiscarded, hpending, hkept.once, hcurrent, List.append_nil, List.append_nil, List.append_nil]

theorem drain_ends_two :
    (recorded {} false ([.enqueue [1], .processQueue, .enqueue [2, 3], .drain] ++ endings (some 1) none)).1.writing =
        false ∧
      (recorded {} false ([.enqueue [1], .processQueue, .enqueue [2, 3], .drain] ++
        endings (some 1) none)).1.pendingBatches = [] ∧
      (recorded {} false ([.enqueue [1], .processQueue, .enqueue [2, 3], .drain] ++ endings (some 1) none)).2.accepted =
        ((recorded {} false ([.enqueue [1], .processQueue, .enqueue [2, 3], .drain] ++
          endings (some 1) none)).2.finished.map Prod.fst).flatten :=
  drain_ends {} false [.enqueue [1], .processQueue, .enqueue [2, 3], .drain] ⟨rfl, rfl⟩ (some 1) none

end BatchWriter

end DbnPipe.DbWriter
