import DbnPipe.Stream.TcpSocket

/-!
# Backpressure between the socket and its downstream

`TcpSocket` wired by `Create` to a `PipelineComponent`: two suspend counts, one kept by each.

* `Wired` — the socket, the component, and whether every `Resume` of the socket has met its assertion;
* `suspend`, `resume` — **the component's calls**, which reach the socket on 0→1 and on 1→0;
* `Act`, `Event` — what the downstream does in a callback, and what happens to the socket;
* `resume_never_underflows` — the socket's count is never resumed below zero unless the socket is closed under
  a suspended component.
-/

namespace DbnPipe

open TcpSocket

/-- The socket and its downstream.  `sound` tells that no `Resume` of the socket found its count at zero. -/
structure Wired where
  sock : TcpSocket := {}
  comp : Component Unit := { own := () }
  sound : Bool := true

namespace Wired

/-- The socket does something. -/
def onSocket (f : TcpSocket → TcpSocket) (w : Wired) : Wired := { w with sock := f w.sock }

/-- The component does something. -/
def onComp (f : Component Unit → Component Unit) (w : Wired) : Wired := { w with comp := f w.comp }

/-- `upstream_->Resume()`. -/
def resumeSocket (w : Wired) : Wired :=
  { w with sock := w.sock.resume, sound := w.sound && decide (0 < w.sock.suspendCount) }

/-- `Suspend` of the component. -/
def suspend (w : Wired) : Wired :=
  let w' := w.onComp Component.suspend
  if w.comp.suspendCount = 0 then w'.onSocket TcpSocket.suspend else w'

/-- The deferred `OnDone` at the end of `Resume`. -/
def completeDeferred (flushAndComplete : Wired → Wired) (w : Wired) : Wired :=
  if w.comp.donePending = true ∧ w.comp.suspended = false then
    flushAndComplete (w.onComp Component.clearDone)
  else w

/-- `Resume` of the component; a caller of it has called `Suspend`. -/
def resume (processPending flushAndComplete : Wired → Wired) (w : Wired) : Wired :=
  let prev := w.comp.suspendCount
  let w := w.onComp fun c => { c with suspendCount := prev - 1 }
  if prev = 1 then
    if w.comp.closed then w.completeDeferred flushAndComplete
    else
      let w := processPending (w.onComp Component.enter)
      let w := if w.comp.suspended then w else w.resumeSocket
      (w.completeDeferred flushAndComplete).onComp Component.leave
  else w

/-! ### What happens -/

/-- What the component does in a callback: `Resume` runs `ProcessPending` and `FlushAndComplete`, which do
things of this kind themselves. -/
inductive Act where
  | suspend
  | resume (processPending flushAndComplete : List Act)
  | deferOnDone
  | requestClose

mutual

/-- The component does one thing. -/
def act : Act → Wired → Wired
  | .suspend, w => w.suspend
  | .resume pending flush, w => w.resume (fun w => acts pending w) (fun w => acts flush w)
  | .deferOnDone, w => w.onComp Component.deferOnDone
  | .requestClose, w => w.onComp Component.requestClose

/-- The component does some things. -/
def acts : List Act → Wired → Wired
  | [], w => w
  | a :: as, w => acts as (act a w)

end

/-- What happens to the socket, with what the component does in the callbacks: in `OnData`, and in `OnDone`
or `OnError`. -/
inductive Event where
  | socket (op : Op)
  | readable (chunks : List (List Byte)) (onData : List Act) (r : ReadEnd) (onEnd : List Act)
  | error (errno : ℤ) (onError : List Act)
  | act (a : Act)

/-- A call of the component. -/
def callWith (onData onEnd : List Act) (call : SocketCall) (w : Wired) : Wired :=
  let w := w.onSocket (tell call)
  match call with
  | .data _ => acts onData w
  | .error _ => acts onEnd w
  | .done => acts onEnd w

/-- One event.  Suspending and resuming the socket is the component's doing. -/
def step (w : Wired) : Event → Wired
  | .socket .suspend => w
  | .socket .resume => w
  | .socket op => w.onSocket fun s => s.step op
  | .readable chunks onData r onEnd =>
    if w.sock.handle.isSome then handleReadable onSocket (callWith onData onEnd) chunks r w else w
  | .error errno onError =>
    if w.sock.handle.isSome then handleError onSocket (callWith [] onError) errno w else w
  | .act a => act a w

/-! ### What the component's calls keep -/

/-- The socket's count covers `k`, and one more while the component is suspended. -/
def Credit (k : ℤ) (w : Wired) : Prop :=
  k + (if 0 < w.comp.suspendCount then 1 else 0) ≤ w.sock.suspendCount

/-- What keeps every credit, and every assertion met. -/
def Keeps (f : Wired → Wired) : Prop :=
  ∀ w k, 0 ≤ k → w.sound = true → Credit k w → (f w).sound = true ∧ Credit k (f w)

theorem keeps_id : Keeps id := fun _ _ _ hs hc => ⟨hs, hc⟩

theorem Keeps.comp {f g : Wired → Wired} (hg : Keeps g) (hf : Keeps f) : Keeps (fun w => g (f w)) := by
  intro w k hk hs hc
  obtain ⟨h1, h2⟩ := hf w k hk hs hc
  exact hg (f w) k hk h1 h2

/-- The component does something that leaves its count. -/
theorem keeps_onComp {f : Component Unit → Component Unit} (h : ∀ c, (f c).suspendCount = c.suspendCount) :
    Keeps (onComp f) := by
  intro w k _ hs hc
  refine ⟨hs, ?_⟩
  rw [Credit, onComp, h]
  exact hc

theorem keeps_suspend : Keeps suspend := by
  intro w k _ hs hc
  rw [Credit] at hc
  rw [suspend]
  by_cases h0 : w.comp.suspendCount = 0
  · simp only [h0, if_true]
    refine ⟨hs, ?_⟩
    have hcount : w.comp.suspend.suspendCount = 1 := by rw [Component.suspend, if_pos h0, h0]
    simp only [Credit, onSocket, onComp, hcount, suspend_count]
    rw [h0] at hc
    simp only [Nat.lt_irrefl, if_false, Nat.one_pos, if_true] at hc ⊢
    omega
  · simp only [if_neg h0]
    refine ⟨hs, ?_⟩
    have hcount : w.comp.suspend.suspendCount = w.comp.suspendCount + 1 := by
      rw [Component.suspend, if_neg h0]
    simp only [Credit, onComp, hcount]
    rw [if_pos (Nat.pos_of_ne_zero h0)] at hc
    rw [if_pos (Nat.succ_pos _)]
    exact hc

theorem keeps_completeDeferred {flush : Wired → Wired} (h : Keeps flush) :
    Keeps (completeDeferred flush) := by
  intro w k hk hs hc
  rw [completeDeferred]
  split
  · exact (h.comp (keeps_onComp (f := Component.clearDone) fun _ => rfl)) w k hk hs hc
  · exact ⟨hs, hc⟩

/-- Resuming the socket takes one of the credit. -/
theorem resumeSocket_credit {w : Wired} {k : ℤ} (hk : 0 ≤ k) (hs : w.sound = true)
    (hsusp : w.comp.suspended = false) (hc : Credit (k + 1) w) :
    w.resumeSocket.sound = true ∧ Credit k w.resumeSocket := by
  have h0 := (Component.not_suspended_iff w.comp).mp hsusp
  rw [Credit, h0] at hc
  simp only [Nat.lt_irrefl, if_false] at hc
  constructor
  · simp only [resumeSocket, hs, Bool.true_and, decide_eq_true_eq]
    omega
  · simp only [Credit, resumeSocket, h0, resume_count, Nat.lt_irrefl, if_false]
    omega

/-- The credit of a suspended component is free once its count is zero. -/
theorem Credit.release {w : Wired} {k : ℤ} (h1 : w.comp.suspendCount = 1) (hc : Credit k w) :
    Credit (k + 1) (w.onComp fun c => { c with suspendCount := 0 }) := by
  rw [Credit, h1] at hc
  simp only [Nat.one_pos, if_true] at hc
  simp only [Credit, onComp, Nat.lt_irrefl, if_false]
  omega

theorem Credit.mono {w : Wired} {k l : ℤ} (hc : Credit k w) (h : l ≤ k) : Credit l w := by
  rw [Credit] at hc ⊢
  omega

theorem keeps_resume {pending flush : Wired → Wired} (hp : Keeps pending) (hf : Keeps flush) :
    Keeps (resume pending flush) := by
  intro w k hk hs hc
  rw [resume]
  by_cases h1 : w.comp.suspendCount = 1
  · have hrel := hc.release h1
    have hs0 : (w.onComp fun c => { c with suspendCount := 0 }).sound = true := hs
    simp only [h1, if_true, Nat.sub_self]
    generalize (w.onComp fun c => { c with suspendCount := 0 }) = w0 at hrel hs0 ⊢
    split
    · exact keeps_completeDeferred hf w0 k hk hs0 (hrel.mono (by omega))
    · obtain ⟨hs', hc'⟩ : (pending (w0.onComp Component.enter)).sound = true ∧
          Credit (k + 1) (pending (w0.onComp Component.enter)) :=
        (hp.comp (keeps_onComp (f := Component.enter) fun _ => rfl)) w0 (k + 1) (by omega) hs0 hrel
      generalize pending (w0.onComp Component.enter) = w1 at hs' hc' ⊢
      have hleave := Keeps.comp (keeps_onComp (f := Component.leave) Component.leave_suspendCount)
        (keeps_completeDeferred hf)
      split
      · exact hleave w1 k hk hs' (hc'.mono (by omega))
      · rename_i hsusp
        obtain ⟨hs'', hc''⟩ := resumeSocket_credit hk hs' (eq_false_of_ne_true hsusp) hc'
        exact hleave _ k hk hs'' hc''
  · simp only [if_neg h1]
    refine ⟨hs, ?_⟩
    rw [Credit] at hc ⊢
    by_cases h0 : w.comp.suspendCount = 0
    · simpa only [onComp, h0] using hc
    · rw [if_pos (Nat.pos_of_ne_zero h0)] at hc
      show k + (if 0 < w.comp.suspendCount - 1 then 1 else 0) ≤ w.sock.suspendCount
      rw [if_pos (show 0 < w.comp.suspendCount - 1 by omega)]
      exact hc

theorem requestClose_count (c : Component Unit) : c.requestClose.suspendCount = c.suspendCount := by
  obtain ⟨_, _, _, h⟩ := c.requestClose_eq
  rw [h]

mutual

/-- **What the component does keeps the credit**, whatever its callbacks do. -/
theorem keeps_act : ∀ a, Keeps (act a)
  | .suspend => keeps_suspend
  | .resume pending flush => keeps_resume (keeps_acts pending) (keeps_acts flush)
  | .deferOnDone => keeps_onComp fun _ => rfl
  | .requestClose => keeps_onComp requestClose_count

theorem keeps_acts : ∀ as, Keeps (acts as)
  | [] => keeps_id
  | a :: as => (keeps_acts as).comp (keeps_act a)

end

/-! ### A closed component -/

/-- The component is closed, and no assertion has been missed. -/
structure AtRest (w : Wired) : Prop where
  closed : w.comp.closed = true
  sound : w.sound = true
  count : 0 ≤ w.sock.suspendCount

/-- A change of the component that leaves it closed. -/
theorem AtRest.onComp {w : Wired} (h : AtRest w) {f : Component Unit → Component Unit}
    (hf : (f w.comp).closed = w.comp.closed) : AtRest (w.onComp f) :=
  ⟨hf.trans h.closed, h.sound, h.count⟩

theorem AtRest.suspend {w : Wired} (h : AtRest w) : AtRest w.suspend := by
  have hcomp := h.onComp (Component.suspend_closed w.comp)
  rw [Wired.suspend]
  split
  · refine ⟨hcomp.closed, h.sound, ?_⟩
    have hcount := h.count
    simp only [onSocket, Wired.onComp, suspend_count]
    omega
  · exact hcomp

theorem AtRest.resume {pending flush : Wired → Wired} (hf : ∀ w, AtRest w → AtRest (flush w)) {w : Wired}
    (h : AtRest w) : AtRest (w.resume pending flush) := by
  have hcomp : AtRest (w.onComp fun c => { c with suspendCount := w.comp.suspendCount - 1 }) :=
    h.onComp rfl
  have hclosed := hcomp.closed
  rw [Wired.resume]
  simp only
  generalize (w.onComp fun c => { c with suspendCount := w.comp.suspendCount - 1 }) = w0 at hcomp hclosed ⊢
  rw [if_pos hclosed]
  split
  · rw [completeDeferred]
    split
    · exact hf _ (hcomp.onComp rfl)
    · exact hcomp
  · exact hcomp

mutual

/-- **A closed component no longer resumes the socket.** -/
theorem act_atRest : ∀ a {w}, AtRest w → AtRest (act a w)
  | .suspend, _, h => h.suspend
  | .resume _ flush, _, h => h.resume fun _ => acts_atRest flush
  | .deferOnDone, _, h => h.onComp rfl
  | .requestClose, w, h => h.onComp ((Component.requestClose_closed w.comp).trans h.closed.symm)

theorem acts_atRest : ∀ as {w}, AtRest w → AtRest (acts as w)
  | [], _, h => h
  | a :: as, _, h => acts_atRest as (act_atRest a h)

end

/-! ### Runs -/

/-- The component is closed, or the socket's count covers its suspension. -/
def Inv (w : Wired) : Prop := AtRest w ∨ w.sound = true ∧ Credit 0 w

theorem Inv.sound {w : Wired} (h : Inv w) : w.sound = true := by
  rcases h with h | h
  · exact h.sound
  · exact h.1

theorem Inv.count {w : Wired} (h : Inv w) : 0 ≤ w.sock.suspendCount := by
  rcases h with h | h
  · exact h.count
  · have hc := h.2
    rw [Credit] at hc
    split at hc <;> omega

theorem Inv.acts {w : Wired} (h : Inv w) (as : List Act) : Inv (acts as w) := by
  rcases h with h | h
  · exact Or.inl (acts_atRest as h)
  · exact Or.inr (keeps_acts as w 0 (Int.le_refl 0) h.1 h.2)

/-- What the socket does by itself leaves its count. -/
theorem Inv.onSocket {w : Wired} (h : Inv w) {f : TcpSocket → TcpSocket}
    (hf : (f w.sock).suspendCount = w.sock.suspendCount) : Inv (w.onSocket f) := by
  rcases h with h | h
  · exact Or.inl ⟨h.closed, h.sound, hf.symm ▸ h.count⟩
  · refine Or.inr ⟨h.1, ?_⟩
    rw [Credit, Wired.onSocket, hf]
    exact h.2

theorem Inv.callWith {w : Wired} (h : Inv w) (onData onEnd : List Act) (call : SocketCall) :
    Inv (callWith onData onEnd call w) := by
  have ht : Inv (w.onSocket (tell call)) := h.onSocket rfl
  cases call with
  | data chunks => exact ht.acts onData
  | error e => exact ht.acts onEnd
  | done => exact ht.acts onEnd

/-- The component is closed or not suspended. -/
def Released (w : Wired) : Prop := w.comp.closed = true ∨ w.comp.suspendCount = 0

/-- Closing the socket is fine under such a component. -/
theorem Inv.close {w : Wired} (h : Inv w) (hr : Released w) : Inv (w.onSocket close) := by
  rcases hr with hr | hr
  · exact Or.inl ⟨hr, h.sound, Int.le_refl 0⟩
  · refine Or.inr ⟨h.sound, ?_⟩
    simp only [Credit, Wired.onSocket, hr, Nat.lt_irrefl, if_false]
    exact Int.le_refl 0

/-- The world after the `OnData` of a read. -/
def delivered (chunks : List (List Byte)) (onData onEnd : List Act) (w : Wired) : Wired :=
  if chunks.isEmpty then w else callWith onData onEnd (.data chunks) w

/-- The socket is not closed, by `Close`, at the end of the stream or after an error, while the component is
open and suspended. -/
def ClosedReleased (w : Wired) : Event → Prop
  | .socket .close => Released w
  | .readable chunks onData .eof onEnd => w.sock.handle.isSome = true →
      Released (delivered chunks onData onEnd w)
  | .error errno onError => w.sock.handle.isSome = true → Released (callWith [] onError
      (.error { code := .connectionFailed, message := "socket error", osErrno := errno }) w)
  | _ => True

/-- **One event** keeps the credit, unless it closes the socket under a suspended component. -/
theorem step_inv {w : Wired} (h : Inv w) {ev : Event} (hok : ClosedReleased w ev) : Inv (step w ev) := by
  cases ev with
  | socket op =>
    cases op with
    | suspend => exact h
    | resume => exact h
    | connect r => exact h.onSocket (connect_count _ r)
    | connectDone =>
      show Inv (w.onSocket fun s => s.step .connectDone)
      refine h.onSocket ?_
      rw [TcpSocket.step]
      split
      · exact connectDone_count _
      · rfl
    | queue data => exact h.onSocket (queue_count _ data)
    | flush rs => exact h.onSocket (flush_count _ rs)
    | close => exact h.close hok
  | readable chunks onData r onEnd =>
    rw [step]
    split
    · rename_i hh
      have hdel : Inv (delivered chunks onData onEnd w) := by
        rw [delivered]
        split
        · exact h
        · exact h.callWith onData onEnd _
      cases r with
      | again => exact hdel
      | failed errno => exact hdel.callWith onData onEnd (.error
          { code := .connectionFailed, message := "read() failed", osErrno := errno })
      | eof => exact (hdel.close (hok hh)).callWith onData onEnd .done
    · exact h
  | error errno onError =>
    rw [step]
    split
    · rename_i hh
      exact (h.callWith [] onError _).close (hok hh)
    · exact h
  | act a => exact h.acts [a]

/-- **When resuming never underflows the socket.**  In a run in which the socket is not closed while its
downstream is open and suspended, every `Resume` of the socket finds its count above zero, and the count is
never negative. -/
theorem resume_never_underflows (evs : List Event) (h : Runs.Along ClosedReleased step {} evs) :
    (Runs.run step {} evs).sound = true ∧ 0 ≤ (Runs.run step {} evs).sock.suspendCount := by
  have hstart : Inv {} := Or.inr ⟨rfl, Int.le_refl 0⟩
  have hstep : ∀ w ev, Inv w → ClosedReleased w ev → Inv (step w ev) :=
    fun _ _ h hok => step_inv h hok
  have hinv := Runs.run_preserves hstep hstart h
  exact ⟨hinv.sound, hinv.count⟩

theorem resume_never_underflows_run :
    (Runs.run step {} [.socket (.connect (.started 3)), .act .suspend, .act (.resume [] []),
      .readable [[1]] [] .eof []]).sound = true :=
  (resume_never_underflows [.socket (.connect (.started 3)), .act .suspend, .act (.resume [] []),
    .readable [[1]] [] .eof []] ⟨trivial, trivial, trivial, fun _ => Or.inr rfl, trivial⟩).1

/-- **A suspension that the end of the stream finds is resumed once too often**: the `OnData` before it
suspends, `Close` zeroes the count, and `Resume` of the component meets a socket that is not suspended. -/
theorem not_resume_never_underflows :
    ¬∀ evs : List Event, (Runs.run step {} evs).sound = true := by
  intro h
  have hs := h [.socket (.connect (.started 3)), .readable [[1]] [.suspend] .eof [.deferOnDone],
    .act (.resume [] [])]
  exact absurd hs (by decide)

end Wired

end DbnPipe
