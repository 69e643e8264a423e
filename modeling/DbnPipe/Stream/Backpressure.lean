import DbnPipe.Stream.Component

/-!
# Backpressure balance of a pipeline component

What a component's upstream is told, over arbitrary call trees: a `Resume` carries the calls its
`ProcessPending` and its `FlushAndComplete` provoke, to any depth.

* `Call` / `exec` — the calls, executed by the `suspend` and `resume` of `Component`;
* `excess` — the suspensions the upstream holds beyond the one a suspended component owes it;
* `leaks` — the `Resume` calls whose `ProcessPending` returns with the component suspended again, so that
  the `Resume` owed to the upstream for the suspension before it is skipped;
* `excess_execAll` — **each leak leaves one suspension behind for good**, and nothing else changes `excess`;
* `balanced_iff` — the upstream is balanced after every call of a run exactly when the run has no leak.
-/

namespace DbnPipe

/-- A call on a component.  `pending` are the calls made while this `Resume` runs `ProcessPending`, `flush`
those made while it runs `FlushAndComplete`. -/
inductive Call where
  | suspend
  | deferOnDone
  | resume (pending flush : List Call)

namespace Component

variable {σ : Type}

mutual

/-- One call, with what it provokes. -/
def exec : Call → Component σ → Component σ
  | .suspend => fun c => c.suspend
  | .deferOnDone => fun c => c.deferOnDone
  | .resume pending flush => fun c => c.resume (execAll pending) (execAll flush)

/-- Calls in order. -/
def execAll : List Call → Component σ → Component σ
  | [] => fun c => c
  | call :: calls => fun c => execAll calls (exec call c)

end

mutual

/-- Every `Resume`, the nested ones included, finds the count positive. -/
def Valid : Call → Component σ → Prop
  | .suspend => fun _ => True
  | .deferOnDone => fun _ => True
  | .resume pending flush => fun c =>
    0 < c.suspendCount ∧ (c.suspendCount = 1 →
      ValidAll pending c.resumed ∧
      let c := (execAll pending c.resumed).resumeUpstream
      (c.donePending = true ∧ c.suspended = false → ValidAll flush c.clearDone))

/-- `Valid` along a list of calls. -/
def ValidAll : List Call → Component σ → Prop
  | [] => fun _ => True
  | call :: calls => fun c => Valid call c ∧ ValidAll calls (exec call c)

end

mutual

/-- The number of `Resume` calls, nested ones included, whose `ProcessPending` returns suspended. -/
def leaks : Call → Component σ → ℕ
  | .suspend => fun _ => 0
  | .deferOnDone => fun _ => 0
  | .resume pending flush => fun c =>
    if c.suspendCount = 1 then
      leaksAll pending c.resumed + (if (execAll pending c.resumed).suspended = true then 1 else 0) +
        let c := (execAll pending c.resumed).resumeUpstream
        (if c.donePending = true ∧ c.suspended = false then leaksAll flush c.clearDone else 0)
    else 0

/-- `leaks` along a list of calls. -/
def leaksAll : List Call → Component σ → ℕ
  | [] => fun _ => 0
  | call :: calls => fun c => leaks call c + leaksAll calls (exec call c)

end

/-- What the upstream holds beyond what the component's state asks for. -/
def excess (c : Component σ) : Int :=
  (c.upstreamSuspends : Int) - c.upstreamResumes - (if c.suspended then 1 else 0)

/-- Suspends minus resumes sent to the upstream is one if the component is suspended, else zero. -/
def Balanced (c : Component σ) : Prop :=
  (c.upstreamSuspends : Int) - c.upstreamResumes = if 0 < c.suspendCount then 1 else 0

theorem balanced_iff_excess (c : Component σ) : c.Balanced ↔ c.excess = 0 := by
  by_cases h : 0 < c.suspendCount
  · simp only [Balanced, excess, suspended, h, if_true, decide_true]
    omega
  · simp only [Balanced, excess, suspended, h, if_false, decide_false, Bool.false_eq_true]
    omega

/-! ### The primitive steps -/

theorem excess_suspend (c : Component σ) : c.suspend.excess = c.excess := by
  by_cases h : c.suspendCount = 0
  · simp only [suspend, excess, suspended, h, if_true, Nat.lt_irrefl, decide_false, decide_true,
      Nat.zero_add, Nat.zero_lt_one, Bool.false_eq_true, if_false]
    omega
  · have hpos : 0 < c.suspendCount := Nat.pos_of_ne_zero h
    simp only [suspend, excess, suspended, h, hpos, if_false, Nat.succ_pos, decide_true, if_true]

/-- The count falls to zero: the suspension sent for it is now in excess. -/
theorem excess_resumed {c : Component σ} (h : c.suspendCount = 1) :
    c.resumed.excess = c.excess + 1 := by
  simp only [resumed, enter, excess, suspended, h, Nat.lt_irrefl, decide_false, Nat.zero_lt_one,
    decide_true, Bool.false_eq_true, if_false, if_true]
  omega

/-- The upstream gets its `Resume`, unless the component has been suspended again. -/
theorem excess_resumeUpstream (c : Component σ) :
    c.resumeUpstream.excess + 1 = c.excess + (if c.suspended then 1 else 0 : ℕ) := by
  cases h : c.suspended with
  | true =>
    simp only [resumeUpstream, h, if_true]
    rfl
  | false =>
    have hc : 0 < c.suspendCount ↔ False := by
      rw [← suspended_iff, h]
      simp
    simp only [resumeUpstream, Bool.false_eq_true, if_false, excess, suspended, hc, decide_false]
    omega

theorem excess_leave (c : Component σ) : c.leave.excess = c.excess := by
  simp only [excess, leave_upstreamSuspends, leave_upstreamResumes, leave_suspended]

/-! ### Call trees -/

section Equations

variable (call : Call) (calls pending flush : List Call) (c : Component σ)

theorem exec_suspend : exec .suspend c = c.suspend := by rw [exec]

theorem exec_deferOnDone : exec .deferOnDone c = c.deferOnDone := by rw [exec]

theorem exec_resume :
    exec (.resume pending flush) c = c.resume (execAll pending) (execAll flush) := by rw [exec]

@[simp] theorem execAll_nil : execAll [] c = c := by rw [execAll]

@[simp] theorem execAll_cons : execAll (call :: calls) c = execAll calls (exec call c) := by
  rw [execAll]

theorem leaks_suspend : leaks .suspend c = 0 := by rw [leaks]

theorem leaks_deferOnDone : leaks .deferOnDone c = 0 := by rw [leaks]

theorem leaks_resume_of_ne (h : c.suspendCount ≠ 1) : leaks (.resume pending flush) c = 0 := by
  rw [leaks]
  exact if_neg h

theorem leaks_resume_of_eq (h : c.suspendCount = 1) :
    leaks (.resume pending flush) c =
      leaksAll pending c.resumed + (if (execAll pending c.resumed).suspended = true then 1 else 0) +
        (if (execAll pending c.resumed).resumeUpstream.donePending = true ∧
            (execAll pending c.resumed).resumeUpstream.suspended = false then
          leaksAll flush (execAll pending c.resumed).resumeUpstream.clearDone
        else 0) := by
  rw [leaks]
  exact if_pos h

@[simp] theorem leaksAll_nil : leaksAll [] c = 0 := by rw [leaksAll]

@[simp] theorem leaksAll_cons :
    leaksAll (call :: calls) c = leaks call c + leaksAll calls (exec call c) := by rw [leaksAll]

theorem valid_resume (h : Valid (.resume pending flush) c) :
    0 < c.suspendCount ∧ (c.suspendCount = 1 →
      ValidAll pending c.resumed ∧
      ((execAll pending c.resumed).resumeUpstream.donePending = true ∧
          (execAll pending c.resumed).resumeUpstream.suspended = false →
        ValidAll flush (execAll pending c.resumed).resumeUpstream.clearDone)) := by
  rw [Valid] at h
  exact h

@[simp] theorem validAll_nil : ValidAll [] c ↔ True := by rw [ValidAll]

@[simp] theorem validAll_cons :
    ValidAll (call :: calls) c ↔ Valid call c ∧ ValidAll calls (exec call c) := by rw [ValidAll]

end Equations

mutual

theorem exec_closed : ∀ (call : Call) (c : Component σ), c.closed = false → (exec call c).closed = false
  | .suspend, c, h => by
    rw [exec_suspend, suspend_closed, h]
  | .deferOnDone, c, h => by
    rw [exec_deferOnDone]
    exact h
  | .resume pending flush, c, h => by
    by_cases hc : c.suspendCount = 1
    · have h1 := execAll_closed pending c.resumed h
      have h2 : (execAll pending c.resumed).resumeUpstream.closed = false := by
        rw [resumeUpstream_closed, h1]
      rw [exec_resume, resume_of_eq hc h, leave_closed, completeDeferred]
      split
      · exact execAll_closed flush _ h2
      · exact h2
    · rw [exec_resume, resume_of_ne hc]
      exact h

theorem execAll_closed :
    ∀ (calls : List Call) (c : Component σ), c.closed = false → (execAll calls c).closed = false
  | [], c, h => by
    rw [execAll_nil]
    exact h
  | call :: calls, c, h => by
    rw [execAll_cons]
    exact execAll_closed calls (exec call c) (exec_closed call c h)

end

mutual

/-- **One call**: its leaks, and nothing else, add to the excess. -/
theorem excess_exec : ∀ (call : Call) (c : Component σ), c.closed = false → Valid call c →
    (exec call c).excess = c.excess + leaks call c
  | .suspend, c, _, _ => by
    rw [exec_suspend, leaks_suspend, excess_suspend]
    omega
  | .deferOnDone, c, _, _ => by
    have h : c.deferOnDone.excess = c.excess := rfl
    rw [exec_deferOnDone, leaks_deferOnDone, h]
    omega
  | .resume pending flush, c, h, hv => by
    obtain ⟨hpos, hv⟩ := valid_resume pending flush c hv
    by_cases hc : c.suspendCount = 1
    · obtain ⟨hv1, hv2⟩ := hv hc
      have e1 := excess_execAll pending c.resumed h hv1
      have e2 := excess_resumeUpstream (execAll pending c.resumed)
      have hclosed : (execAll pending c.resumed).resumeUpstream.closed = false := by
        rw [resumeUpstream_closed, execAll_closed pending c.resumed h]
      rw [excess_resumed hc] at e1
      rw [exec_resume, leaks_resume_of_eq pending flush c hc, resume_of_eq hc h, excess_leave,
        completeDeferred]
      generalize (execAll pending c.resumed).resumeUpstream = c2 at *
      generalize (if (execAll pending c.resumed).suspended = true then 1 else 0 : ℕ) = leak at *
      by_cases hd : c2.donePending = true ∧ c2.suspended = false
      · -- the deferred completion runs in a state with the same excess
        have e3 := excess_execAll flush c2.clearDone hclosed (hv2 hd)
        have e4 : c2.clearDone.excess = c2.excess := rfl
        rw [if_pos hd, if_pos hd]
        omega
      · rw [if_neg hd, if_neg hd]
        omega
    · have hlt : 0 < c.suspendCount - 1 := by omega
      have hsame : excess { c with suspendCount := c.suspendCount - 1 } = c.excess := by
        simp only [excess, suspended, hlt, hpos]
      rw [exec_resume, leaks_resume_of_ne pending flush c hc, resume_of_ne hc, hsame]
      omega

/-- **A run**: its leaks, and nothing else, add to the excess. -/
theorem excess_execAll : ∀ (calls : List Call) (c : Component σ), c.closed = false → ValidAll calls c →
    (execAll calls c).excess = c.excess + leaksAll calls c
  | [], c, _, _ => by
    rw [execAll_nil, leaksAll_nil]
    omega
  | call :: calls, c, h, hv => by
    rw [validAll_cons] at hv
    have e1 := excess_exec call c h hv.1
    have e2 := excess_execAll calls (exec call c) (exec_closed call c h) hv.2
    rw [execAll_cons, leaksAll_cons, e2, e1]
    omega

end

theorem validAll_append (calls calls' : List Call) (c : Component σ) :
    ValidAll (calls ++ calls') c ↔ ValidAll calls c ∧ ValidAll calls' (execAll calls c) := by
  induction calls generalizing c with
  | nil => simp
  | cons call calls ih => simp only [List.cons_append, validAll_cons, execAll_cons, ih, and_assoc]

theorem leaksAll_append (calls calls' : List Call) (c : Component σ) :
    leaksAll (calls ++ calls') c = leaksAll calls c + leaksAll calls' (execAll calls c) := by
  induction calls generalizing c with
  | nil => simp
  | cons call calls ih => simp only [List.cons_append, leaksAll_cons, execAll_cons, ih, Nat.add_assoc]

/-- **When backpressure is balanced.**  From a balanced open component, the upstream is balanced after every
outermost call of a run exactly when no `Resume` of the run has its `ProcessPending` return with the
component suspended. -/
theorem balanced_iff (c : Component σ) (hclosed : c.closed = false) (hbal : c.Balanced)
    (calls : List Call) (hv : ValidAll calls c) :
    (∀ p, p <+: calls → (execAll p c).Balanced) ↔ leaksAll calls c = 0 := by
  have hexcess : ∀ p, p <+: calls →
      ((execAll p c).Balanced ↔ leaksAll p c = 0) := by
    rintro p ⟨q, rfl⟩
    have e := excess_execAll p c hclosed ((validAll_append p q c).1 hv).1
    rw [balanced_iff_excess] at hbal ⊢
    omega
  constructor
  · intro h
    exact (hexcess calls List.prefix_rfl).1 (h calls List.prefix_rfl)
  · rintro h p hp
    refine (hexcess p hp).2 ?_
    obtain ⟨q, rfl⟩ := hp
    rw [leaksAll_append] at h
    omega

/-- A run whose `ProcessPending` suspends and resumes, and is not suspended in the end. -/
theorem balanced_iff_nested :
    (∀ p, p <+: [.suspend, .resume [.suspend, .resume [] []] []] →
      (execAll p ({ own := () } : Component Unit)).Balanced) ↔
    leaksAll [.suspend, .resume [.suspend, .resume [] []] []] ({ own := () } : Component Unit) = 0 :=
  balanced_iff { own := () } rfl rfl _ (by
    simp [Valid, exec, execAll, suspend, resume, resumed, enter, leave, resumeUpstream,
      completeDeferred, clearDone, suspended])

/-- **The leak.**  The downstream suspends again out of the data that `Resume` delivers; after the last
`Resume` nobody suspends the component, and its upstream still holds a suspension. -/
theorem not_balanced_resuspended :
    ValidAll [.suspend, .resume [.suspend] [], .resume [] []] ({ own := () } : Component Unit) ∧
      (execAll [.suspend, .resume [.suspend] [], .resume [] []]
        ({ own := () } : Component Unit)).suspendCount = 0 ∧
      ¬ (execAll [.suspend, .resume [.suspend] [], .resume [] []]
        ({ own := () } : Component Unit)).Balanced := by
  refine ⟨?_, ?_, ?_⟩
  · simp [Valid, exec, execAll, suspend, resume, resumed, enter, leave, resumeUpstream,
      completeDeferred, clearDone, suspended]
  · simp [exec, execAll, suspend, resume, enter, leave, resumeUpstream, completeDeferred, suspended]
  · simp [Balanced, exec, execAll, suspend, resume, enter, leave, resumeUpstream, completeDeferred,
      suspended]

end Component

end DbnPipe
