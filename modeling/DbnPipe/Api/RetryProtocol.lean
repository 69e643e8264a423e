import DbnPipe.Api.RetryPolicy
import DbnPipe.Library.Journal
import DbnPipe.Library.Runs

/-!
# The retry protocol

What a call of `SymbologyClient` or `MetadataClient` does about the outcomes of its attempts, after anything that its
timers and the pipelines of these attempts may do.

* `outcomes` — **what the attempts of a run come to**, read off what happens;
* `results`, `callbacks`, `attempts` — how the attempts ended, what the user was told, how many attempts there were;
* `answer` — what the user has to be told of a list of outcomes;
* `Allowed` — **what must have happened before** an attempt, a timer, a callback;
* `Reached` — **the invariant**: the call waits for a timer, or for its last sink, or is over;
* `retry_protocol` — **the protocol**, over every run.
-/

namespace DbnPipe.Api

open Journal

variable {ρ : Type}

/-! ### Reading a journal -/

/-- How the attempts ended, in order. -/
def results (journal : List (Act ρ)) : List (Except Error ρ) :=
  journal.filterMap fun | .ended result => some result | _ => none

/-- What the user's callback was called with. -/
def callbacks (journal : List (Act ρ)) : List (Except Error ρ) :=
  journal.filterMap fun | .callback result => some result | _ => none

/-- How many attempts were made. -/
def attempts (journal : List (Act ρ)) : ℕ := journal.countP fun | .attempt => true | _ => false

/-- An error of a kind that is retried. -/
def Retryable : Except Error ρ → Prop
  | .error e => RetryPolicy.isRetryable e.code = true
  | .ok _ => False

instance : DecidablePred (Retryable (ρ := ρ))
  | .error e => inferInstanceAs (Decidable (RetryPolicy.isRetryable e.code = true))
  | .ok _ => inferInstanceAs (Decidable False)

section reading

variable (j : List (Act ρ)) (result : Except Error ρ) (delay : ℤ)

@[simp] theorem results_attempt : results (j ++ [.attempt]) = results j := by simp [results]
@[simp] theorem results_ended : results (j ++ [.ended result]) = results j ++ [result] := by simp [results]
@[simp] theorem results_schedule : results (j ++ [.schedule delay]) = results j := by simp [results]
@[simp] theorem results_callback : results (j ++ [.callback result]) = results j := by simp [results]

@[simp] theorem callbacks_attempt : callbacks (j ++ [.attempt]) = callbacks j := by simp [callbacks]
@[simp] theorem callbacks_ended : callbacks (j ++ [.ended result]) = callbacks j := by simp [callbacks]
@[simp] theorem callbacks_schedule : callbacks (j ++ [.schedule delay]) = callbacks j := by simp [callbacks]
@[simp] theorem callbacks_callback : callbacks (j ++ [.callback result]) = callbacks j ++ [result] := by
  simp [callbacks]

@[simp] theorem attempts_attempt : attempts (j ++ [.attempt]) = attempts j + 1 := by simp [attempts]
@[simp] theorem attempts_ended : attempts (j ++ [.ended result]) = attempts j := by simp [attempts]
@[simp] theorem attempts_schedule : attempts (j ++ [.schedule delay]) = attempts j := by simp [attempts]
@[simp] theorem attempts_callback : attempts (j ++ [.callback result]) = attempts j := by simp [attempts]

end reading

/-! ### What the attempts come to -/

/-- The outcome that an attempt gets of what happens: no address, or the first word that its pipeline has for its sink.
`closed` are the sinks that got one, or were invalidated. -/
def heard (c : Call ρ) (closed : List ℕ) : Happening ρ → Option (Except Error ρ)
  | .timer addr => if c.timers ≠ 0 ∧ addr = false then some (.error Call.dnsError) else none
  | .onResult k v => if k < c.sinks.length ∧ k ∉ closed then some (.ok v) else none
  | .onError k e => if k < c.sinks.length ∧ k ∉ closed then some (.error e) else none
  | .onComplete _ => none
  | .invalidate _ => none

/-- The sinks that are closed behind what happens. -/
def closes (c : Call ρ) (closed : List ℕ) : Happening ρ → List ℕ
  | .onResult k _ | .onError k _ | .invalidate k => if k < c.sinks.length then k :: closed else closed
  | .timer _ | .onComplete _ => closed

/-- **The outcomes of the attempts** of a run. -/
def outcomes (c : Call ρ) (closed : List ℕ) : List (Happening ρ × Draw) → List (Except Error ρ)
  | [] => []
  | ev :: evs => (heard c closed ev.1).toList ++ outcomes (c.step ev) (closes c closed ev.1) evs

/-- That of the first one, if it is known at once. -/
def firstOutcome (addr : Bool) : List (Except Error ρ) := if addr then [] else [.error Call.dnsError]

/-- The flags of the sinks say which are closed. -/
def Synced (c : Call ρ) (closed : List ℕ) : Prop :=
  ∀ k sink, c.sinks[k]? = some sink → (k ∈ closed ↔ (!sink.valid || sink.delivered) = true)

theorem callApiWithRetry_false (c : Call ρ) (dis : Draw) :
    c.callApiWithRetry false dis = (c.record .attempt).finish (.error Call.dnsError) dis := rfl

theorem callApiWithRetry_true (c : Call ρ) (dis : Draw) :
    c.callApiWithRetry true dis = { c.record .attempt with sinks := c.sinks ++ [{}] } := rfl

theorem finish_sinks (c : Call ρ) (result : Except Error ρ) (dis : Draw) : (c.finish result dis).sinks = c.sinks := by
  cases result with
  | ok v => rfl
  | error e =>
    rw [Call.finish]
    split <;> rfl

/-- An attempt that ends is entered once, and nothing else is. -/
theorem results_finish (c : Call ρ) (result : Except Error ρ) (dis : Draw) :
    results (c.finish result dis).journal = results c.journal ++ [result] := by
  cases result with
  | ok v => rw [Call.finish, Call.record_journal, Call.record_journal, results_callback, results_ended]
  | error e =>
    rw [Call.finish]
    split
    · rw [Call.retry, Call.record_journal, Call.record_journal, results_schedule, results_ended]
    · rw [Call.record_journal, Call.record_journal, results_callback, results_ended]

/-- **Every word for a live sink** ends its attempt, and no other does. -/
theorem results_deliver {c : Call ρ} {closed : List ℕ} (h : Synced c closed) (k : ℕ) (result : Except Error ρ)
    (dis : Draw) : results (c.deliver k result dis).journal =
      results c.journal ++ if k < c.sinks.length ∧ k ∉ closed then [result] else [] := by
  rw [Call.deliver]
  cases hk : c.sinks[k]? with
  | none =>
    have hge := List.getElem?_eq_none_iff.mp hk
    rw [if_neg fun hand => absurd hand.1 (by omega), List.append_nil]
  | some sink =>
    have hlt := (List.getElem?_eq_some_iff.mp hk).1
    have hsync := h k sink hk
    simp only
    split
    · rename_i hflag
      rw [if_neg fun hand => hand.2 (hsync.mpr hflag), List.append_nil]
    · rename_i hflag
      rw [if_pos ⟨hlt, fun hin => hflag (hsync.mp hin)⟩]
      exact results_finish _ result dis

theorem synced_deliver {c : Call ρ} {closed : List ℕ} (h : Synced c closed) (k : ℕ) (result : Except Error ρ)
    (dis : Draw) : Synced (c.deliver k result dis) (if k < c.sinks.length then k :: closed else closed) := by
  rw [Call.deliver]
  cases hk : c.sinks[k]? with
  | none =>
    rw [if_neg (by have := List.getElem?_eq_none_iff.mp hk; omega)]
    exact h
  | some sink =>
    have hlt := (List.getElem?_eq_some_iff.mp hk).1
    rw [if_pos hlt]
    simp only
    split
    · -- a closed sink stays what it is
      rename_i hflag
      intro i other hi
      by_cases hik : i = k
      · subst hik
        obtain rfl := Option.some.inj (hk.symm.trans hi)
        simp only [List.mem_cons, true_or, true_iff]
        exact hflag
      · rw [List.mem_cons, or_iff_right hik]
        exact h i other hi
    · intro i other hi
      rw [finish_sinks] at hi
      rw [List.getElem?_set] at hi
      split at hi
      · rename_i hki
        obtain rfl := Option.some.inj hi
        rw [hki]
        simp
      · rename_i hki
        rw [List.mem_cons, or_iff_right (Ne.symm hki)]
        exact h i other hi

theorem synced_invalidate {c : Call ρ} {closed : List ℕ} (h : Synced c closed) (k : ℕ) :
    Synced (c.invalidate k) (if k < c.sinks.length then k :: closed else closed) := by
  intro i other hi
  rw [Call.invalidate, List.getElem?_modify] at hi
  obtain ⟨old, hold, rfl⟩ := Option.map_eq_some_iff.mp hi
  have hlt := (List.getElem?_eq_some_iff.mp hold).1
  by_cases hki : k = i
  · subst hki
    rw [if_pos hlt, if_pos rfl]
    simp
  · rw [if_neg hki]
    split
    · rw [List.mem_cons, or_iff_right (Ne.symm hki)]
      exact h i old hold
    · exact h i old hold

/-- An attempt begins: with an address its sink is new, and live. -/
theorem synced_callApiWithRetry {c : Call ρ} {closed : List ℕ} (h : Synced c closed)
    (hlt : ∀ k ∈ closed, k < c.sinks.length) (addr : Bool) (dis : Draw) :
    Synced (c.callApiWithRetry addr dis) closed := by
  intro i sink hi
  cases addr with
  | false =>
    rw [callApiWithRetry_false, finish_sinks] at hi
    exact h i sink hi
  | true =>
    rw [callApiWithRetry_true] at hi
    rcases Nat.lt_trichotomy i c.sinks.length with hless | rfl | hgreater
    · rw [List.getElem?_append_left hless] at hi
      exact h i sink hi
    · rw [List.getElem?_concat_length] at hi
      rw [← Option.some.inj hi]
      exact iff_of_false (fun hin => absurd (hlt _ hin) (Nat.lt_irrefl _)) Bool.false_ne_true
    · rw [List.getElem?_eq_none (by rw [List.length_append, List.length_singleton]; omega)] at hi
      exact absurd hi (by simp)

/-- What the flags say, of the sinks that there are. -/
structure Tracked (c : Call ρ) (closed : List ℕ) : Prop where
  synced : Synced c closed
  made : ∀ k ∈ closed, k < c.sinks.length

theorem deliver_length (c : Call ρ) (k : ℕ) (result : Except Error ρ) (dis : Draw) :
    (c.deliver k result dis).sinks.length = c.sinks.length := by
  rw [Call.deliver]
  cases c.sinks[k]? with
  | none => rfl
  | some sink =>
    simp only
    split
    · rfl
    · rw [finish_sinks, List.length_set]

/-- The closed sinks are among those that were made. -/
theorem made_closes {c c' : Call ρ} {closed : List ℕ} (h : ∀ k ∈ closed, k < c.sinks.length)
    (hlength : c'.sinks.length = c.sinks.length) (k : ℕ) :
    ∀ i ∈ if k < c.sinks.length then k :: closed else closed, i < c'.sinks.length := by
  intro i hi
  rw [hlength]
  split at hi
  · rename_i hlt
    rcases List.mem_cons.mp hi with rfl | hi
    · exact hlt
    · exact h i hi
  · exact h i hi

/-- **One step** enters the outcome that it brings. -/
theorem tracked_step {c : Call ρ} {closed : List ℕ} (h : Tracked c closed) (ev : Happening ρ × Draw) :
    Tracked (c.step ev) (closes c closed ev.1) ∧
      results (c.step ev).journal = results c.journal ++ (heard c closed ev.1).toList := by
  obtain ⟨happening, dis⟩ := ev
  cases happening with
  | timer addr =>
    simp only [Call.step, Call.timer, heard, closes]
    split
    · rename_i hzero
      rw [if_neg fun hand => hand.1 hzero]
      exact ⟨h, (List.append_nil _).symm⟩
    · rename_i hpos
      refine ⟨⟨synced_callApiWithRetry (c := { c with timers := c.timers - 1 }) h.synced h.made addr dis,
        fun k hk => ?_⟩, ?_⟩
      · have hlt := h.made k hk
        cases addr with
        | false => rwa [callApiWithRetry_false, finish_sinks]
        | true =>
          rw [callApiWithRetry_true, List.length_append]
          exact Nat.lt_of_lt_of_le hlt (Nat.le_add_right _ _)
      · cases addr with
        | false =>
          rw [if_pos ⟨hpos, rfl⟩, callApiWithRetry_false, results_finish, Call.record_journal, results_attempt]
          rfl
        | true =>
          rw [if_neg fun hand => Bool.noConfusion hand.2, callApiWithRetry_true, Call.record_journal, results_attempt]
          exact (List.append_nil _).symm
  | onResult k v =>
    refine ⟨⟨synced_deliver h.synced k (.ok v) dis, made_closes h.made (deliver_length c k (.ok v) dis) k⟩, ?_⟩
    rw [heard]
    refine (results_deliver h.synced k (.ok v) dis).trans (congrArg _ ?_)
    split <;> rfl
  | onError k e =>
    refine ⟨⟨synced_deliver h.synced k (.error e) dis, made_closes h.made (deliver_length c k (.error e) dis) k⟩, ?_⟩
    rw [heard]
    refine (results_deliver h.synced k (.error e) dis).trans (congrArg _ ?_)
    split <;> rfl
  | onComplete k => exact ⟨h, (List.append_nil _).symm⟩
  | invalidate k =>
    exact ⟨⟨synced_invalidate h.synced k, made_closes h.made (List.length_modify _ _ _) k⟩, (List.append_nil _).symm⟩

/-- **A run** enters the outcomes of its attempts, in order. -/
theorem results_run {c : Call ρ} {closed : List ℕ} (h : Tracked c closed) (evs : List (Happening ρ × Draw)) :
    results (Runs.run Call.step c evs).journal = results c.journal ++ outcomes c closed evs := by
  induction evs generalizing c closed with
  | nil => exact (List.append_nil _).symm
  | cons ev evs ih =>
    obtain ⟨htracked, hresults⟩ := tracked_step h ev
    rw [Runs.run_cons, ih htracked, hresults, outcomes, List.append_assoc]

/-! ### The protocol -/

/-- **What the user has to be told**: the first outcome that is not retried, with `budget` retries left. -/
def answer : ℕ → List (Except Error ρ) → List (Except Error ρ)
  | _, [] => []
  | 0, result :: _ => [result]
  | budget + 1, result :: rest => if Retryable result then answer budget rest else [result]

/-- What must stand in the journal before each thing the call does. -/
def Allowed (config : RetryConfig) (before : List (Act ρ)) : Act ρ → Prop
  | .attempt => before = [] ∨ ∃ earlier delay, before = earlier ++ [.schedule delay]
  | .ended _ => ∃ earlier, before = earlier ++ [.attempt]
  | .schedule delay => ∃ earlier e recorded x, before = earlier ++ [.ended (.error e)] ∧
      RetryPolicy.isRetryable e.code = true ∧ recorded.toNat = attempts before - 1 ∧
      Drawn (1.0 - config.jitterFactor) (1.0 + config.jitterFactor) x ∧
      delay = e.retryAfter.getD ((RetryPolicy.mk config recorded).backoff x)
  | .callback result => ∃ earlier, before = earlier ++ [.ended result] ∧ callbacks before = []

/-- Nobody was called back yet, and every attempt that ended may be retried. -/
def Unsettled (config : RetryConfig) (journal : List (Act ρ)) : Prop :=
  callbacks journal = [] ∧ (∀ result ∈ results journal, Retryable result) ∧
    (results journal).length ≤ config.maxRetries.toNat

/-- The user was called back once, with the first result that is not retried. -/
def Settled (config : RetryConfig) (journal : List (Act ρ)) : Prop :=
  ∃ retried result, results journal = retried ++ [result] ∧ callbacks journal = [result] ∧
    (∀ r ∈ retried, Retryable r) ∧ retried.length ≤ config.maxRetries.toNat ∧
    (Retryable result → retried.length = config.maxRetries.toNat)

/-- Behind every attempt that ended stands its retry, or the callback. -/
def Followed (journal : List (Act ρ)) : Prop :=
  ∀ earlier result behind, journal = earlier ++ .ended result :: behind →
    (∃ rest, behind = .callback result :: rest) ∨ (Retryable result ∧ ∃ delay rest, behind = .schedule delay :: rest)

/-- Where a call is: **a timer waits, an attempt is under way, or the user was called back**.  It hangs only where the
server asked for a delay for which no timer expires. -/
inductive Phase (c : Call ρ) : Prop
  | waits (earlier : List (Act ρ)) (delay : ℤ) (last : c.journal = earlier ++ [.schedule delay])
      (armed : c.arms delay = true) (timer : c.timers = 1)
  | hangs (earlier : List (Act ρ)) (delay : ℤ) (last : c.journal = earlier ++ [.schedule delay]) (unarmed : delay ≤ 0)
      (timers : c.timers = 0)
  | tries (earlier : List (Act ρ)) (sink : ResultSink) (last : c.journal = earlier ++ [.attempt])
      (current : c.sinks.getLast? = some sink) (undelivered : sink.delivered = false) (timers : c.timers = 0)
  | settled (earlier : List (Act ρ)) (result : Except Error ρ) (last : c.journal = earlier ++ [.callback result])
      (timers : c.timers = 0)

/-- **The retry protocol** of a call whose attempts came to `outcomes`. -/
structure Protocol (config : RetryConfig) (outcomes : List (Except Error ρ)) (c : Call ρ) : Prop where
  budget : attempts c.journal ≤ config.maxRetries.toNat + 1
  heard : results c.journal = outcomes
  answered : callbacks c.journal = answer config.maxRetries.toNat outcomes
  callback : Unsettled config c.journal ∨ Settled config c.journal
  order : Justified (Allowed config) c.journal
  followed : Followed c.journal
  phase : Phase c

theorem answer_of_unsettled {config : RetryConfig} {journal : List (Act ρ)} (h : Unsettled config journal) :
    callbacks journal = answer config.maxRetries.toNat (results journal) := by
  have hnil : ∀ (l : List (Except Error ρ)) budget, (∀ r ∈ l, Retryable r) → l.length ≤ budget →
      answer budget l = [] := by
    intro l
    induction l with
    | nil => exact fun budget _ _ => by rw [answer]
    | cons r l ih =>
      intro budget hall hlen
      cases budget with
      | zero => exact absurd hlen (by simp)
      | succ budget =>
        rw [answer, if_pos (hall r List.mem_cons_self)]
        exact ih budget (fun r' hr' => hall r' (List.mem_cons_of_mem r hr')) (Nat.le_of_succ_le_succ hlen)
  rw [h.1, hnil _ _ h.2.1 h.2.2]

theorem answer_of_settled {config : RetryConfig} {journal : List (Act ρ)} (h : Settled config journal) :
    callbacks journal = answer config.maxRetries.toNat (results journal) := by
  obtain ⟨retried, result, hresults, hcallbacks, hall, hlen, hfinal⟩ := h
  have hone : ∀ (l : List (Except Error ρ)) budget, (∀ r ∈ l, Retryable r) → l.length ≤ budget →
      (Retryable result → l.length = budget) → answer budget (l ++ [result]) = [result] := by
    intro l
    induction l with
    | nil =>
      intro budget _ _ hfinal
      cases budget with
      | zero => rfl
      | succ budget => exact if_neg fun hr => absurd (hfinal hr) (by simp)
    | cons r l ih =>
      intro budget hall hlen hfinal
      cases budget with
      | zero => exact absurd hlen (by simp)
      | succ budget =>
        rw [List.cons_append, answer, if_pos (hall r List.mem_cons_self)]
        exact ih budget (fun r' hr' => hall r' (List.mem_cons_of_mem r hr')) (Nat.le_of_succ_le_succ hlen)
          fun hr => Nat.succ.inj (hfinal hr)
  rw [hcallbacks, hresults, hone retried _ hall hlen hfinal]

/-- What stands behind the end of an attempt has it before: a retry or the callback. -/
theorem followed_of_justified {config : RetryConfig} {journal : List (Act ρ)} (h : Justified (Allowed config) journal)
    (hlast : ∀ earlier result, journal ≠ earlier ++ [.ended result]) : Followed journal := by
  intro earlier result behind hjournal
  cases behind with
  | nil => exact absurd hjournal (hlast earlier result)
  | cons a rest =>
    have hallowed := h (earlier ++ [.ended result]) a rest (by rw [hjournal, List.append_assoc]; rfl)
    have hend : ∀ {before : List (Act ρ)} {b : Act ρ}, earlier ++ [.ended result] = before ++ [b] → .ended result = b :=
      fun heq => (List.cons.inj (List.append_inj' heq rfl).2).1
    cases a with
    | attempt =>
      rcases hallowed with hnil | ⟨before, delay, heq⟩
      · exact absurd hnil (by simp)
      · exact absurd (hend heq) (by simp)
    | ended other =>
      obtain ⟨before, heq⟩ := hallowed
      exact absurd (hend heq) (by simp)
    | schedule delay =>
      obtain ⟨before, e, recorded, x, heq, hretry, -⟩ := hallowed
      obtain rfl := Act.ended.inj (hend heq)
      exact .inr ⟨hretry, delay, rest, rfl⟩
    | callback other =>
      obtain ⟨before, heq, -⟩ := hallowed
      obtain rfl := Act.ended.inj (hend heq)
      exact .inl ⟨rest, rfl⟩

/-! ### The invariant -/

/-- The first `n` sinks of the call have delivered. -/
def Closed (n : ℕ) (c : Call ρ) : Prop := ∀ k < n, ∀ sink, c.sinks[k]? = some sink → sink.delivered = true

/-- No attempt of `journal` is under way, and nothing has settled the call. -/
structure Between (config : RetryConfig) (c : Call ρ) (journal : List (Act ρ)) : Prop where
  policy : c.policy.config = config
  order : Justified (Allowed config) journal
  unsettled : Unsettled config journal
  recorded : c.policy.attempts.toNat = (results journal).length
  attempted : attempts journal = (results journal).length

/-- The states of a call. -/
inductive Reached (config : RetryConfig) (c : Call ρ) : Prop
  /-- A timer is set for the next attempt, if the event loop arms it. -/
  | waiting (earlier : List (Act ρ)) (delay : ℤ) (last : c.journal = earlier ++ [.schedule delay])
      (timer : c.timers = if c.arms delay then 1 else 0) (state : Between config c c.journal)
      (closed : Closed c.sinks.length c)
  /-- The last sink may deliver, none of the others. -/
  | inFlight (n : ℕ) (sink : ResultSink) (earlier : List (Act ρ)) (last : c.journal = earlier ++ [.attempt])
      (length : c.sinks.length = n + 1) (current : c.sinks[n]? = some sink) (undelivered : sink.delivered = false)
      (timers : c.timers = 0) (state : Between config c earlier) (allowed : Allowed config earlier .attempt)
      (closed : Closed n c)
  /-- The user has been called back. -/
  | finished (earlier : List (Act ρ)) (result : Except Error ρ) (last : c.journal = earlier ++ [.callback result])
      (order : Justified (Allowed config) c.journal) (settled : Settled config c.journal)
      (attempted : attempts c.journal = (results c.journal).length) (timers : c.timers = 0)
      (closed : Closed c.sinks.length c)

theorem Reached.budget {config : RetryConfig} {c : Call ρ} (h : Reached config c) :
    attempts c.journal ≤ config.maxRetries.toNat + 1 := by
  cases h with
  | waiting earlier delay last timer state closed =>
      have hlen := state.unsettled.2.2
      have hattempted := state.attempted
      omega
  | inFlight n sink earlier last length current undelivered timers state allowed closed =>
      have hlen := state.unsettled.2.2
      have hattempted := state.attempted
      rw [last, attempts_attempt]
      omega
  | finished earlier result last order settled attempted timers closed =>
      obtain ⟨retried, result, hresults, -, -, hlen, -⟩ := settled
      rw [attempted, hresults, List.length_append, List.length_singleton]
      omega

theorem Reached.order {config : RetryConfig} {c : Call ρ} (h : Reached config c) :
    Justified (Allowed config) c.journal := by
  cases h with
  | waiting earlier delay last timer state closed => exact state.order
  | inFlight n sink earlier last length current undelivered timers state allowed closed =>
      rw [last]
      exact justified_concat.mpr ⟨state.order, allowed⟩
  | finished earlier result last order settled attempted timers closed => exact order

theorem Reached.callback {config : RetryConfig} {c : Call ρ} (h : Reached config c) :
    Unsettled config c.journal ∨ Settled config c.journal := by
  cases h with
  | waiting earlier delay last timer state closed => exact .inl state.unsettled
  | inFlight n sink earlier last length current undelivered timers state allowed closed =>
      rw [last]
      refine .inl ?_
      simpa only [Unsettled, callbacks_attempt, results_attempt] using state.unsettled
  | finished earlier result last order settled attempted timers closed => exact .inr settled

/-- **A call hangs only for want of a timer**; the event loop arms one for every positive delay. -/
theorem Reached.phase {config : RetryConfig} {c : Call ρ} (h : Reached config c)
    (hloop : ∀ delay, 0 < delay → c.arms delay = true) : Phase c := by
  cases h with
  | waiting earlier delay last timer state closed =>
      cases harms : c.arms delay with
      | true => exact .waits earlier delay last harms (by rw [timer, if_pos harms])
      | false =>
          refine .hangs earlier delay last ?_ (by rw [timer, harms]; rfl)
          by_contra hpos
          exact absurd ((hloop delay (by omega)).symm.trans harms) (by simp)
  | inFlight n sink earlier last length current undelivered timers state allowed closed =>
      refine .tries earlier sink last ?_ undelivered timers
      rw [List.getLast?_eq_getElem?, length]
      exact current
  | finished earlier result last order settled attempted timers closed => exact .settled earlier result last timers

/-- The journal of a call ends with none of its attempts just over. -/
theorem Phase.last_ne {c : Call ρ} (h : Phase c) (earlier : List (Act ρ)) (result : Except Error ρ) :
    c.journal ≠ earlier ++ [.ended result] := by
  have hne : ∀ {before : List (Act ρ)} {a : Act ρ}, c.journal = before ++ [a] → a ≠ .ended result →
      c.journal ≠ earlier ++ [.ended result] := fun hlast ha heq =>
    ha (List.cons.inj (List.append_inj' (hlast.symm.trans heq) rfl).2).1
  cases h with
  | waits earlier delay last armed timer => exact hne last (by simp)
  | hangs earlier delay last unarmed timers => exact hne last (by simp)
  | tries earlier sink last current undelivered timers => exact hne last (by simp)
  | settled earlier result last timers => exact hne last (by simp)

theorem Reached.protocol {config : RetryConfig} {c : Call ρ} {outcomes : List (Except Error ρ)} (h : Reached config c)
    (hloop : ∀ delay, 0 < delay → c.arms delay = true) (heard : results c.journal = outcomes) :
    Protocol config outcomes c where
  budget := h.budget
  heard := heard
  answered := heard ▸ h.callback.elim answer_of_unsettled answer_of_settled
  callback := h.callback
  order := h.order
  followed := followed_of_justified h.order (h.phase hloop).last_ne
  phase := h.phase hloop

/-! ### An attempt ends -/

/-- An attempt has ended with `result`, after the `retried` ones, and nothing has been done about it. -/
structure Ended (config : RetryConfig) (c : Call ρ) (retried : List (Except Error ρ)) (result : Except Error ρ) :
    Prop where
  policy : c.policy.config = config
  order : Justified (Allowed config) c.journal
  last : ∃ earlier, c.journal = earlier ++ [.ended result]
  ended : results c.journal = retried ++ [result]
  silent : callbacks c.journal = []
  attempted : attempts c.journal = retried.length + 1
  retryable : ∀ r ∈ retried, Retryable r
  recorded : c.policy.attempts.toNat = retried.length
  room : retried.length ≤ config.maxRetries.toNat
  timers : c.timers = 0
  closed : Closed c.sinks.length c

theorem ended_of_between {config : RetryConfig} {c : Call ρ} {earlier : List (Act ρ)}
    (hlast : c.journal = earlier ++ [.attempt]) (h : Between config c earlier)
    (hallowed : Allowed config earlier .attempt) (htimers : c.timers = 0) (hclosed : Closed c.sinks.length c)
    (result : Except Error ρ) : Ended config (c.record (.ended result)) (results earlier) result where
  policy := h.policy
  order := by
    rw [Call.record_journal, justified_concat, hlast, justified_concat]
    exact ⟨⟨h.order, hallowed⟩, earlier, rfl⟩
  last := ⟨c.journal, rfl⟩
  ended := by rw [Call.record_journal, results_ended, hlast, results_attempt]
  silent := by
    rw [Call.record_journal, callbacks_ended, hlast, callbacks_attempt]
    exact h.unsettled.1
  attempted := by rw [Call.record_journal, attempts_ended, hlast, attempts_attempt, h.attempted]
  retryable := h.unsettled.2.1
  recorded := h.recorded
  room := h.unsettled.2.2
  timers := htimers
  closed := hclosed

/-- The user is called back with a result that is not retried. -/
theorem callback_reached {config : RetryConfig} {c : Call ρ} {retried : List (Except Error ρ)}
    {result : Except Error ρ} (h : Ended config c retried result)
    (hfinal : Retryable result → retried.length = config.maxRetries.toNat) :
    Reached config (c.record (.callback result)) := by
  obtain ⟨earlier, hlast⟩ := h.last
  refine .finished c.journal result rfl (justified_concat.mpr ⟨h.order, earlier, hlast, h.silent⟩)
    ⟨retried, result, ?_, ?_, h.retryable, h.room, hfinal⟩ ?_ h.timers h.closed
  · rw [Call.record_journal, results_callback, h.ended]
  · rw [Call.record_journal, callbacks_callback, h.silent, List.nil_append]
  · rw [Call.record_journal, attempts_callback, results_callback, h.attempted, h.ended, List.length_append,
      List.length_singleton]

/-- A retry is scheduled, with its delay computed before it is recorded. -/
theorem retry_reached {config : RetryConfig} {c : Call ρ} {retried : List (Except Error ρ)} {e : Error}
    (h : Ended config c retried (.error e)) (hretry : c.policy.shouldRetry e = true) (dis : Draw) :
    Reached config (c.retry e dis) := by
  obtain ⟨earlier, hlast⟩ := h.last
  obtain ⟨hkind, hlt⟩ := (RetryPolicy.shouldRetry_iff _ _).mp hretry
  have hrecorded := RetryPolicy.recordAttempt_attempts hretry
  have hroom : c.policy.attempts.toNat < config.maxRetries.toNat := by
    rw [← h.policy]
    exact UInt32.lt_iff_toNat_lt.mp hlt
  have hlen : (results c.journal).length = c.policy.attempts.toNat + 1 := by
    rw [h.ended, List.length_append, List.length_singleton, h.recorded]
  have hallowed : Allowed config c.journal (.schedule (c.policy.getNextDelay e dis)) := by
    obtain ⟨x, hdrawn, hdelay⟩ := c.policy.getNextDelay_drawn e dis
    rw [h.policy] at hdrawn
    refine ⟨earlier, e, c.policy.attempts, x, hlast, hkind, ?_, hdrawn, ?_⟩
    · rw [h.attempted, h.recorded, Nat.add_sub_cancel]
    · rw [hdelay, ← h.policy]
  have hunsettled : Unsettled config (c.journal ++ [.schedule (c.policy.getNextDelay e dis)]) := by
    rw [Unsettled, callbacks_schedule, results_schedule, hlen]
    refine ⟨h.silent, fun r hr => ?_, hroom⟩
    rw [h.ended, List.mem_append, List.mem_singleton] at hr
    rcases hr with hr | rfl
    · exact h.retryable r hr
    · exact hkind
  refine .waiting c.journal (c.policy.getNextDelay e dis) rfl ?_
    ⟨h.policy, justified_concat.mpr ⟨h.order, hallowed⟩, hunsettled, ?_, ?_⟩ h.closed
  · rw [Call.retry, Call.record_timers, h.timers]
    rfl
  · rw [Call.retry, Call.record_journal, Call.record_policy, results_schedule, hlen, hrecorded]
  · rw [Call.retry, Call.record_journal, results_schedule, attempts_schedule, hlen, h.attempted, h.recorded]

/-- **An attempt ends.**  Its retry is scheduled, or the user is called back. -/
theorem finish_reached {config : RetryConfig} {c : Call ρ} {retried : List (Except Error ρ)}
    {result : Except Error ρ} (h : Ended config (c.record (.ended result)) retried result) (dis : Draw) :
    Reached config (c.finish result dis) := by
  cases result with
  | ok v => exact callback_reached h fun hretry => hretry.elim
  | error e =>
      have hroom := h.room
      have hrecorded := h.recorded
      rw [Call.finish]
      split
      · rename_i hretry
        exact retry_reached h hretry dis
      · rename_i hretry
        rw [RetryPolicy.shouldRetry_iff, UInt32.lt_iff_toNat_lt, h.policy] at hretry
        refine callback_reached h fun hkind => ?_
        have hnot : ¬ (c.record (.ended (.error e))).policy.attempts.toNat < config.maxRetries.toNat :=
          fun hlt => hretry ⟨hkind, hlt⟩
        omega

/-! ### An attempt begins -/

/-- **An attempt begins.**  Without an address it ends at once, else its sink is the last one. -/
theorem callApiWithRetry_reached {config : RetryConfig} {c : Call ρ} (h : Between config c c.journal)
    (hallowed : Allowed config c.journal .attempt) (htimers : c.timers = 0) (hclosed : Closed c.sinks.length c)
    (addr : Bool) (dis : Draw) : Reached config (c.callApiWithRetry addr dis) := by
  have hstate : Between config (c.record .attempt) c.journal :=
    ⟨h.policy, h.order, h.unsettled, h.recorded, h.attempted⟩
  cases addr with
  | false => exact finish_reached (ended_of_between rfl hstate hallowed htimers hclosed (.error Call.dnsError)) dis
  | true =>
      refine .inFlight c.sinks.length {} c.journal rfl ?_ ?_ rfl htimers
        ⟨h.policy, h.order, h.unsettled, h.recorded, h.attempted⟩ hallowed fun k hk sink hsink => ?_
      · exact List.length_append
      · exact List.getElem?_concat_length
      · exact hclosed k hk sink ((List.getElem?_append_left hk).symm.trans hsink)

/-! ### One step -/

theorem timer_reached {config : RetryConfig} {c : Call ρ} (h : Reached config c) (addr : Bool) (dis : Draw) :
    Reached config (c.timer addr dis) := by
  rw [Call.timer]
  cases h with
  | waiting earlier delay last timer state closed =>
      split
      · exact .waiting earlier delay last timer state closed
      · rename_i hpos
        have hone : c.timers = 1 := by
          rw [timer] at hpos ⊢
          split at hpos
          · rw [if_pos (by assumption)]
          · exact absurd rfl hpos
        rw [hone]
        exact callApiWithRetry_reached (c := { c with timers := 1 - 1 })
          ⟨state.policy, state.order, state.unsettled, state.recorded, state.attempted⟩
          (Or.inr ⟨earlier, delay, last⟩) rfl closed addr dis
  | inFlight n sink earlier last length current undelivered timers state allowed closed =>
      rw [if_pos timers]
      exact .inFlight n sink earlier last length current undelivered timers state allowed closed
  | finished earlier result last order settled attempted timers closed =>
      rw [if_pos timers]
      exact .finished earlier result last order settled attempted timers closed

/-- A sink that has delivered does nothing more. -/
theorem deliver_old {c : Call ρ} {k : ℕ} (h : ∀ sink, c.sinks[k]? = some sink → sink.delivered = true)
    (result : Except Error ρ) (dis : Draw) : c.deliver k result dis = c := by
  rw [Call.deliver]
  cases hk : c.sinks[k]? with
  | none => rfl
  | some sink => simp only [h sink hk, Bool.or_true, if_true]

/-- All sinks have delivered: nothing is handed over. -/
theorem deliver_closed {c : Call ρ} (h : Closed c.sinks.length c) (k : ℕ) (result : Except Error ρ) (dis : Draw) :
    c.deliver k result dis = c :=
  deliver_old (fun sink hk => h k (List.getElem?_eq_some_iff.mp hk).1 sink hk) result dis

theorem deliver_reached {config : RetryConfig} {c : Call ρ} (h : Reached config c) (k : ℕ)
    (result : Except Error ρ) (dis : Draw) : Reached config (c.deliver k result dis) := by
  have hreached := h
  cases h with
  | waiting earlier delay last timer state closed =>
      rw [deliver_closed closed]
      exact hreached
  | finished earlier last result order settled attempted timers closed =>
      rw [deliver_closed closed]
      exact hreached
  | inFlight n sink earlier last length current undelivered timers state allowed closed =>
      by_cases hk : k = n
      · rw [hk, Call.deliver, current]
        simp only
        split
        · exact hreached
        · have hended := ended_of_between (c := { c with sinks := c.sinks.set n { sink with delivered := true } })
            last ⟨state.policy, state.order, state.unsettled, state.recorded, state.attempted⟩ allowed timers
          refine finish_reached (hended ?_ result) dis
          intro i hi s hs
          rw [List.getElem?_set] at hs
          rw [List.length_set] at hi
          split at hs
          · rw [if_pos (by omega), Option.some.injEq] at hs
            rw [← hs]
          · exact closed i (by omega) s hs
      · rw [deliver_old]
        · exact hreached
        · intro s hs
          have hlt := (List.getElem?_eq_some_iff.mp hs).1
          exact closed k (by omega) s hs

/-- Invalidating a sink changes no delivered flag. -/
theorem closed_invalidate {n : ℕ} {c : Call ρ} (h : Closed n c) (k : ℕ) : Closed n (c.invalidate k) := by
  intro i hi sink hsink
  rw [Call.invalidate, List.getElem?_modify] at hsink
  obtain ⟨old, hold, rfl⟩ := Option.map_eq_some_iff.mp hsink
  have := h i hi old hold
  split <;> exact this

theorem invalidate_reached {config : RetryConfig} {c : Call ρ} (h : Reached config c) (k : ℕ) :
    Reached config (c.invalidate k) := by
  have hlength : (c.invalidate k).sinks.length = c.sinks.length := List.length_modify _ _ _
  cases h with
  | waiting earlier delay last timer state closed =>
      exact .waiting earlier delay last timer
        ⟨state.policy, state.order, state.unsettled, state.recorded, state.attempted⟩
        (hlength ▸ closed_invalidate closed k)
  | finished earlier result last order settled attempted timers closed =>
      exact .finished earlier result last order settled attempted timers (hlength ▸ closed_invalidate closed k)
  | inFlight n sink earlier last length current undelivered timers state allowed closed =>
      refine .inFlight n (if k = n then { sink with valid := false } else sink) earlier last (hlength.trans length) ?_
        ?_ timers ⟨state.policy, state.order, state.unsettled, state.recorded, state.attempted⟩ allowed
        (closed_invalidate closed k)
      · rw [Call.invalidate, List.getElem?_modify, current]
        rfl
      · split <;> exact undelivered

/-- **One step.** -/
theorem step_reached {config : RetryConfig} {c : Call ρ} (h : Reached config c) (ev : Happening ρ × Draw) :
    Reached config (c.step ev) := by
  obtain ⟨happening, dis⟩ := ev
  cases happening with
  | timer addr => exact timer_reached h addr dis
  | onResult k v => exact deliver_reached h k (.ok v) dis
  | onError k e => exact deliver_reached h k (.error e) dis
  | onComplete k => exact h
  | invalidate k => exact invalidate_reached h k

section CallApi

variable (config : RetryConfig) (arms : ℤ → Bool) (addr : Bool) (dis : Draw)

theorem callApi_reached : Reached config (Call.callApi config arms addr dis : Call ρ) := by
  have hstate : Between config ({ policy := { config }, arms } : Call ρ) [] :=
    ⟨rfl, justified_nil _, ⟨rfl, fun result h => absurd h List.not_mem_nil, Nat.zero_le _⟩, rfl, rfl⟩
  have hclosed : Closed 0 ({ policy := { config }, arms } : Call ρ) := fun k hk => absurd hk (Nat.not_lt_zero k)
  exact callApiWithRetry_reached hstate (Or.inl rfl) rfl hclosed addr dis

theorem callApi_tracked : Tracked (Call.callApi config arms addr dis : Call ρ) [] where
  synced := synced_callApiWithRetry (fun k sink hk => absurd hk (by simp)) (fun k hk => absurd hk List.not_mem_nil) addr
    dis
  made _ hk := absurd hk List.not_mem_nil

theorem callApi_results : results (Call.callApi config arms addr dis : Call ρ).journal = firstOutcome addr := by
  cases addr with
  | true => rfl
  | false =>
    rw [Call.callApi, callApiWithRetry_false, results_finish]
    rfl

end CallApi

theorem finish_arms (c : Call ρ) (result : Except Error ρ) (dis : Draw) : (c.finish result dis).arms = c.arms := by
  cases result with
  | ok v => rfl
  | error e =>
    rw [Call.finish]
    split <;> rfl

theorem callApiWithRetry_arms (c : Call ρ) (addr : Bool) (dis : Draw) : (c.callApiWithRetry addr dis).arms = c.arms := by
  cases addr with
  | true => rfl
  | false => exact finish_arms (c.record .attempt) (.error Call.dnsError) dis

theorem deliver_arms (c : Call ρ) (k : ℕ) (result : Except Error ρ) (dis : Draw) :
    (c.deliver k result dis).arms = c.arms := by
  rw [Call.deliver]
  cases c.sinks[k]? with
  | none => rfl
  | some sink =>
    simp only
    split
    · rfl
    · exact finish_arms _ result dis

/-- The event loop stays what it is. -/
theorem step_arms (c : Call ρ) (ev : Happening ρ × Draw) : (c.step ev).arms = c.arms := by
  obtain ⟨happening, dis⟩ := ev
  cases happening with
  | timer addr =>
    rw [Call.step, Call.timer]
    split
    · rfl
    · exact callApiWithRetry_arms _ addr dis
  | onResult k v => exact deliver_arms c k (.ok v) dis
  | onError k e => exact deliver_arms c k (.error e) dis
  | onComplete k => rfl
  | invalidate k => rfl

/-- **The retry protocol.**  Whatever the timers of a call, its name resolution and the pipelines of its attempts
do, on an event loop that arms a timer for every positive delay, the call keeps to the protocol for the outcomes that its
attempts come to; the first retry waits the initial delay unless the server sent one. -/
theorem retry_protocol (config : RetryConfig) (arms : ℤ → Bool) (hloop : ∀ delay, 0 < delay → arms delay = true)
    (addr : Bool) (dis : Draw) (evs : List (Happening ρ × Draw)) :
    let c : Call ρ := Call.callApi config arms addr dis
    Protocol config (firstOutcome addr ++ outcomes c [] evs) (Runs.run Call.step c evs) ∧
    ∀ x, (RetryPolicy.mk config 0).backoff x =
      ((if Float.ofInt config.maxDelay < Float.ofInt config.initialDelay then Float.ofInt config.maxDelay
        else Float.ofInt config.initialDelay) * x).toInt64.toInt := by
  intro c
  have hstep : ∀ (c : Call ρ) ev, Reached config c ∧ c.arms = arms → Reached config (c.step ev) ∧ (c.step ev).arms = arms :=
    fun c ev h => ⟨step_reached h.1 ev, (step_arms c ev).trans h.2⟩
  obtain ⟨hreached, harms⟩ := Runs.run_invariant hstep
    ⟨callApi_reached config arms addr dis, callApiWithRetry_arms _ addr dis⟩ evs
  refine ⟨hreached.protocol (fun delay hpos => (congrFun harms delay).trans (hloop delay hpos)) ?_,
    RetryPolicy.backoff_first config⟩
  rw [results_run (callApi_tracked config arms addr dis) evs, callApi_results]

/-- A server that asks for a second's patience, is asked once more, and answers. -/
def limitedOnce : List (Happening ℕ × Draw) :=
  [(.onError 0 { code := .rateLimited, message := "HTTP 429", retryAfter := some 1000 }, fun low _ => low),
    (.timer true, fun low _ => low), (.onResult 1 7, fun low _ => low), (.onResult 1 8, fun low _ => low)]

/-- The user is called back once. -/
theorem retry_protocol_limitedOnce :
    let c : Call ℕ := Call.callApi {} (fun delay => decide (0 < delay)) true fun low _ => low
    Protocol {} (outcomes c [] limitedOnce) (Runs.run Call.step c limitedOnce) ∧
      callbacks (Runs.run Call.step c limitedOnce).journal = [.ok 7] := by
  intro c
  have h := (retry_protocol {} (fun delay => decide (0 < delay)) (fun delay hpos => decide_eq_true hpos) true
    (fun low _ => low) limitedOnce).1
  exact ⟨h, rfl⟩

end DbnPipe.Api
