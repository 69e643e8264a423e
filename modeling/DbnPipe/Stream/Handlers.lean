import DbnPipe.Library.Callbacks
import DbnPipe.Stream.Component

/-!
# Components called from inside their own calls

`PipelineComponent` calls `OnData` of its downstream, and that may call back: `Suspend`, `Resume`, `Close`, and by
way of a resumed upstream `OnData`, `OnDone` and `OnError`.

* `Handlers` — what a derived class defines;
* `Handlers.call` — **the calls that reach a component**, from whatever side, with the `OnData` of its downstream as
  the callee; `Handlers.Reachable` — the states that they lead to, in any order and **nested in any way**;
* `Owns P` — a property of the derived part, with what the base class passes on;
* `Handlers.Keep`, `Handlers.Keep.reachable` — what the derived class keeps, if its downstream does, holds of them all.
-/

namespace DbnPipe

open Callbacks

/-- What a derived class of `PipelineComponent` defines: its handlers, the reading of its output chain, and the
further calls that it has. -/
structure Handlers (σ : Type) where
  Extra : Type
  onData : (Component σ → Component σ) → Chain → Component σ → Component σ
  onDone : (Component σ → Component σ) → Component σ → Component σ
  processPending : (Component σ → Component σ) → Component σ → Component σ
  flushAndComplete : (Component σ → Component σ) → Component σ → Component σ
  doClose : (Component σ → Component σ) → Component σ → Component σ
  consume : ℕ → Component σ → Component σ
  extra : (Component σ → Component σ) → Extra → Component σ → Component σ

/-- A call that reaches a component.  The upstream's chain has some segments, the first partly consumed. -/
inductive Handlers.Call (Extra : Type) where
  | data (segments : List Segment) (offset : ℕ)
  | done
  | error (e : Error)
  | suspend
  | resume
  | requestClose
  | runClose
  | consume (n : ℕ)
  | extra (x : Extra)

variable {σ : Type}

/-- A call.  A task that was not posted does not run, nor a `Resume` without its `Suspend`. -/
def Handlers.call (H : Handlers σ) (deliver : Component σ → Component σ) :
    Handlers.Call H.Extra → Component σ → Component σ
  | .data segments offset, c =>
    H.onData deliver ((segments.foldl (BufferChain.append id) {}).consume id offset) c
  | .done, c => H.onDone deliver c
  | .error e, c => c.propagateError e
  | .suspend, c => c.suspend
  | .resume, c => if c.suspended then c.resume (H.processPending deliver) (H.flushAndComplete deliver) else c
  | .requestClose, c => c.requestClose
  | .runClose, c => if c.closeScheduled then H.doClose deliver c else c
  | .consume n, c => H.consume n c
  | .extra x, c => H.extra deliver x c

/-- The states that calls lead to. -/
abbrev Handlers.Reachable (H : Handlers σ) (start c : Component σ) : Prop :=
  Callbacks.Reachable (fun deliver i => H.call deliver i) start c

/-! ### What the base class passes on -/

/-- A property of the derived part. -/
def Owns (P : σ → Prop) (c : Component σ) : Prop := P c.own

variable {P : σ → Prop} {c : Component σ}

theorem Owns.of_eq {d : Component σ} (h : Owns P c) (hown : d.own = c.own) : Owns P d := by
  rw [Owns, hown]
  exact h

theorem Owns.fail (h : Owns P c) (e : Error) : Owns P (c.emitError e).requestClose := h.of_eq (c.failed e).own

theorem Owns.requestClose (h : Owns P c) : Owns P c.requestClose := h.of_eq c.requestClose_own

theorem Owns.emitDone (h : Owns P c) : Owns P c.emitDone := h.of_eq c.emitDone_own

theorem keeps_guarded {body : Component σ → Component σ} (hbody : Keeps (Owns P) body) :
    Keeps (Owns P) (Component.guarded body) := by
  intro c hc
  rw [Component.guarded]
  split
  · exact hc
  · exact (hbody c.enter hc).of_eq (Component.leave_own _)

theorem keeps_propagateError (e : Error) : Keeps (Owns P) (Component.propagateError e) :=
  keeps_guarded fun _ hc => hc.fail e

section Deliver

variable {deliver : Component σ → Component σ} (hd : Keeps (Owns P) deliver)
include hd

theorem owns_forwardData (chain : σ → Chain) (h : Owns P c) : Owns P (c.forwardData chain deliver).1 := by
  rw [Component.forwardData]
  split
  · exact h
  · exact hd c h

theorem owns_completeWithFlush (chain : σ → Chain) (h : Owns P c) :
    Owns P (c.completeWithFlush chain deliver).1 := by
  have hflush : Owns P (c.flushPendingData chain deliver).1 := by
    rw [Component.flushPendingData]
    split
    · exact h
    have hc := hd c h
    simp only
    split
    · exact hc.of_eq rfl
    split
    · exact hc.fail _
    · exact hc
  rw [Component.completeWithFlush]
  split
  · exact hflush
  · exact hflush.emitDone

omit hd in
/-- **`Resume`** runs the derived class's two functions. -/
theorem keeps_resume {processPending flushAndComplete : Component σ → Component σ}
    (hpp : Keeps (Owns P) processPending) (hfc : Keeps (Owns P) flushAndComplete) :
    Keeps (Owns P) (Component.resume processPending flushAndComplete) := by
  have hdeferred : Keeps (Owns P) (Component.completeDeferred flushAndComplete) := by
    intro c hc
    rw [Component.completeDeferred]
    split
    · exact hfc _ (hc.of_eq rfl)
    · exact hc
  have hupstream : Keeps (Owns P) Component.resumeUpstream := by
    intro c hc
    rw [Component.resumeUpstream]
    split <;> exact hc
  intro c hc
  rw [Component.resume]
  simp only
  split
  · split
    · exact hdeferred _ (hc.of_eq rfl)
    · have hprocess := hpp _ (hc.of_eq (d := Component.enter { c with suspendCount := c.suspendCount - 1 }) rfl)
      exact (hdeferred _ (hupstream _ hprocess)).of_eq (Component.leave_own _)
  · exact hc.of_eq rfl

end Deliver

/-! ### The rule -/

/-- What the derived class keeps, if its downstream does. -/
structure Handlers.Keep (H : Handlers σ) (P : σ → Prop) : Prop where
  onData : ∀ {deliver}, Keeps (Owns P) deliver → ∀ {chain}, Chain.WF chain → Keeps (Owns P) (H.onData deliver chain)
  onDone : ∀ {deliver}, Keeps (Owns P) deliver → Keeps (Owns P) (H.onDone deliver)
  processPending : ∀ {deliver}, Keeps (Owns P) deliver → Keeps (Owns P) (H.processPending deliver)
  flushAndComplete : ∀ {deliver}, Keeps (Owns P) deliver → Keeps (Owns P) (H.flushAndComplete deliver)
  doClose : ∀ {deliver}, Keeps (Owns P) deliver → Keeps (Owns P) (H.doClose deliver)
  consume : ∀ n, Keeps (Owns P) (H.consume n)
  extra : ∀ {deliver}, Keeps (Owns P) deliver → ∀ x, Keeps (Owns P) (H.extra deliver x)

variable {H : Handlers σ}

/-- **Every call keeps it**, whatever the downstream does with it. -/
theorem Handlers.Keep.call (hH : H.Keep P) {deliver : Component σ → Component σ} (hd : Keeps (Owns P) deliver)
    (i : Handlers.Call H.Extra) : Keeps (Owns P) (H.call deliver i) := by
  intro c hc
  cases i with
  | data segments offset =>
    exact hH.onData hd (Chain.wf_consumed (Chain.appendAll_spec (Chain.wf_empty none) segments).1 offset) c hc
  | done => exact hH.onDone hd c hc
  | error e => exact keeps_propagateError e c hc
  | suspend => exact hc.of_eq c.suspend_own
  | resume =>
    rw [Handlers.call]
    split
    · exact keeps_resume (hH.processPending hd) (hH.flushAndComplete hd) c hc
    · exact hc
  | requestClose => exact hc.requestClose
  | runClose =>
    rw [Handlers.call]
    split
    · exact hH.doClose hd c hc
    · exact hc
  | consume n => exact hH.consume n c hc
  | extra x => exact hH.extra hd x c hc

/-- **So does every run of calls**, nested in any way. -/
theorem Handlers.Keep.reachable (hH : H.Keep P) {start c : Component σ} (h : H.Reachable start c)
    (hstart : Owns P start) : Owns P c :=
  Callbacks.Reachable.keeps (fun _ hd i => hH.call hd i) h hstart

end DbnPipe
