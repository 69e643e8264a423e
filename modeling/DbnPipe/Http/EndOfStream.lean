import DbnPipe.Http.HttpClient
import DbnPipe.Library.Runs

/-!
# What the end of the connection means

`OnDone` from upstream makes `HttpClient` report success or an error.  Success must mean that a response
with a success status was received.

* `Answered` — it was; nothing takes it back;
* `Core` — what holds of every state in which it was not: no `OnDone` was given downstream, the parser is
  inside the first response, whatever ended in an error is closed;
* `Kept` — what every operation preserves, **as a relation that composes**; the downstream's turns, nested
  `Resume` calls included, are one such operation;
* `done_only_answered` — a run that is not told of the end before a response has begun reports success only
  after a complete response with a success status.
-/

namespace DbnPipe.Http

open Component

variable {L : Llhttp}

/-! ### The invariant -/

/-- A complete response was received whose status, if it was reported at all, is below 300. -/
def Answered (c : Component (HttpClient L)) : Prop :=
  ∃ r ∈ c.own.responses, r.reported = some r.status → r.status < 300

/-- A parser that is paused belongs to a suspended component, or to one that has reported its end. -/
def Settled (c : Component (HttpClient L)) : Prop :=
  c.own.errno = .paused → c.suspended = true ∨ c.finalized = true

/-- The state while no success has been received. -/
structure Core (c : Component (HttpClient L)) : Prop where
  noDone : .done ∉ c.signals
  input : c.own.pendingInput.empty = true
  closed : c.closed = true → c.finalized = true
  complete : c.own.messageComplete = true → 300 ≤ c.own.statusCode ∧ c.finalized = true ∧ c.closed = true
  errno : c.own.errno = .ok ∨ c.own.errno = .paused ∨ c.finalized = true
  reported : ∀ k, c.own.reported = some k → c.own.statusCode = k
  deferred : c.donePending = true → c.own.begun = true ∨ c.finalized = true
  reinit : c.own.reinit = false
  opened : c.finalized = false → ∃ bytes es, L.trace L.start bytes = some (c.own.parser, es) ∧
    .messageComplete ∉ es ∧ (c.own.begun = true → .messageBegin ∈ es)

/-- What an operation between two such states leaves alone. -/
structure Stays (c c' : Component (HttpClient L)) : Prop where
  core : Core c'
  status : c'.own.statusCode = c.own.statusCode
  parser : c'.own.parser = c.own.parser
  begun : c'.own.begun = c.own.begun
  finalized : c.finalized = true → c'.finalized = true
  settled : Settled c → Settled c'

/-- What every operation preserves. -/
structure Kept (c c' : Component (HttpClient L)) : Prop where
  answered : Answered c → Answered c'
  core : Core c → Answered c' ∨ Stays c c'

theorem Stays.refl {c : Component (HttpClient L)} (h : Core c) : Stays c c :=
  ⟨h, rfl, rfl, rfl, id, id⟩

theorem Stays.trans {c d e : Component (HttpClient L)} (h : Stays c d) (h' : Stays d e) : Stays c e :=
  ⟨h'.core, h'.status.trans h.status, h'.parser.trans h.parser, h'.begun.trans h.begun,
    fun hf => h'.finalized (h.finalized hf), fun hs => h'.settled (h.settled hs)⟩

theorem Kept.refl (c : Component (HttpClient L)) : Kept c c := ⟨id, fun h => Or.inr (.refl h)⟩

theorem Kept.trans {c d e : Component (HttpClient L)} (h : Kept c d) (h' : Kept d e) : Kept c e := by
  refine ⟨fun ha => h'.answered (h.answered ha), fun hc => ?_⟩
  rcases h.core hc with ha | hs
  · exact Or.inl (h'.answered ha)
  · exact (h'.core hs.core).imp_right hs.trans

/-- An operation whose precondition is only there in the states of `Core`. -/
theorem Kept.step {c d e : Component (HttpClient L)} (h : Kept c d)
    (hr : d.own.responses = e.own.responses) (h' : Stays c d → Answered e ∨ Stays d e) : Kept c e := by
  have hans : Answered d → Answered e := by
    intro ha
    rw [Answered, ← hr]
    exact ha
  refine ⟨fun ha => hans (h.answered ha), fun hc => ?_⟩
  rcases h.core hc with ha | hs
  · exact Or.inl (hans ha)
  · exact (h' hs).imp_right hs.trans

/-! ### Steps that do not touch the message -/

/-- A step that changes nothing the invariant is about, and suspends at most. -/
theorem Core.silent {c c' : Component (HttpClient L)} (h : Core c) (h1 : c'.signals = c.signals)
    (h2 : c'.closed = c.closed) (h3 : c'.finalized = c.finalized) (h4 : c'.donePending = c.donePending)
    (h5 : c'.own.pendingInput = c.own.pendingInput) (h6 : c'.own.messageComplete = c.own.messageComplete)
    (h7 : c'.own.statusCode = c.own.statusCode) (h8 : c'.own.errno = c.own.errno)
    (h9 : c'.own.reported = c.own.reported) (h10 : c'.own.begun = c.own.begun)
    (h11 : c'.own.reinit = c.own.reinit) (h12 : c'.own.parser = c.own.parser) : Core c' := by
  constructor
  · rw [h1]; exact h.noDone
  · rw [h5]; exact h.input
  · rw [h2, h3]; exact h.closed
  · rw [h6, h7, h2, h3]; exact h.complete
  · rw [h8, h3]; exact h.errno
  · rw [h9, h7]; exact h.reported
  · rw [h4, h10, h3]; exact h.deferred
  · rw [h11]; exact h.reinit
  · rw [h3, h12, h10]; exact h.opened

/-- The derived part changes in the fields of the message, the buffers and the record only. -/
theorem kept_own {c c' : Component (HttpClient L)} (h0 : c' = { c with own := c'.own })
    (h1 : c'.own.pendingInput = c.own.pendingInput)
    (h2 : c'.own.messageComplete = c.own.messageComplete)
    (h3 : c'.own.statusCode = c.own.statusCode) (h4 : c'.own.errno = c.own.errno)
    (h5 : c'.own.reported = c.own.reported) (h6 : c'.own.begun = c.own.begun)
    (h7 : c'.own.reinit = c.own.reinit) (h8 : c'.own.parser = c.own.parser)
    (h9 : c'.own.responses = c.own.responses) : Kept c c' := by
  refine (Kept.refl c).step h9.symm fun hs => Or.inr ?_
  have hcore := hs.core.silent (by rw [h0]) (by rw [h0]) (by rw [h0]) (by rw [h0]) h1 h2 h3 h4 h5 h6 h7 h8
  refine ⟨hcore, h3, h8, h6, fun hf => by rw [h0]; exact hf, fun hset he => ?_⟩
  rw [h0]
  exact hset (h4.symm.trans he)

theorem kept_enter (c : Component (HttpClient L)) : Kept c c.enter := by
  refine (Kept.refl c).step rfl fun hs => Or.inr ?_
  exact ⟨hs.core.silent rfl rfl rfl rfl rfl rfl rfl rfl rfl rfl rfl rfl, rfl, rfl, rfl, id, id⟩

theorem kept_leave (c : Component (HttpClient L)) : Kept c c.leave := by
  obtain ⟨_, _, h⟩ := c.leave_eq
  rw [h]
  refine (Kept.refl c).step rfl fun hs => Or.inr ?_
  exact ⟨hs.core.silent rfl rfl rfl rfl rfl rfl rfl rfl rfl rfl rfl rfl, rfl, rfl, rfl, id, id⟩

theorem kept_suspend (c : Component (HttpClient L)) : Kept c c.suspend := by
  rw [suspend]
  split
  all_goals
    refine (Kept.refl c).step rfl fun hs => Or.inr ?_
    refine ⟨hs.core.silent rfl rfl rfl rfl rfl rfl rfl rfl rfl rfl rfl rfl, rfl, rfl, rfl, id, ?_⟩
    intro _ _
    exact Or.inl ((suspended_iff _).mpr (Nat.succ_pos _))

/-- After an error nothing is asked of the parser any more. -/
theorem Core.fail {c d : Component (HttpClient L)} (h : Core c) (err : Errno)
    (hf : Failed (update (fun h => { h with errno := err }) c) d) : Core d := by
  constructor
  · intro hd
    rcases hf.signals _ hd with hd | ⟨_, he⟩
    · exact h.noDone hd
    · cases he
  · rw [hf.own]; exact h.input
  · exact fun _ => hf.finalized
  · rw [hf.own]; exact fun hm => ⟨(h.complete hm).1, hf.finalized, hf.closed⟩
  · exact Or.inr (Or.inr hf.finalized)
  · rw [hf.own]; exact h.reported
  · exact fun _ => Or.inr hf.finalized
  · rw [hf.own]; exact h.reinit
  · exact fun hfin => absurd (hf.finalized.symm.trans hfin) (by simp)

theorem kept_resumeUpstream (c : Component (HttpClient L)) : Kept c c.resumeUpstream := by
  rw [resumeUpstream]
  split
  · exact .refl c
  · refine (Kept.refl c).step rfl fun hs => Or.inr ?_
    exact ⟨hs.core.silent rfl rfl rfl rfl rfl rfl rfl rfl rfl rfl rfl rfl, rfl, rfl, rfl, id, id⟩

/-- Reporting an error and closing. -/
theorem kept_fail {c : Component (HttpClient L)} (e : Error) : Kept c (c.emitError e).requestClose := by
  have hf := c.failed e
  refine (Kept.refl c).step (by rw [hf.own]) fun hs => Or.inr ⟨?_, by rw [hf.own], by rw [hf.own],
    by rw [hf.own], fun _ => hf.finalized, fun _ _ => Or.inr hf.finalized⟩
  exact hs.core.fail c.own.errno hf

/-- Closing what has reported its end. -/
theorem Kept.close {c d : Component (HttpClient L)} (h : Kept c d)
    (hf : Stays c d → d.finalized = true) : Kept c d.requestClose := by
  obtain ⟨closed, pending, scheduled, heq⟩ := d.requestClose_eq
  have hclosed := d.requestClose_closed
  refine h.step (by rw [heq]) fun hs => Or.inr ?_
  have hfin := hf hs
  have hcore := hs.core
  rw [heq] at hclosed ⊢
  refine ⟨?_, rfl, rfl, rfl, id, id⟩
  exact ⟨hcore.noDone, hcore.input, fun _ => hfin,
    fun hm => ⟨(hcore.complete hm).1, hfin, hclosed⟩, hcore.errno, hcore.reported, hcore.deferred,
    hcore.reinit, hcore.opened⟩

/-- `EmitDone` of what has reported its end already. -/
theorem Kept.done {c d : Component (HttpClient L)} (h : Kept c d)
    (hf : Stays c d → d.finalized = true) : Kept c d.emitDone := by
  refine h.step (by rw [emitDone_own]) fun hs => Or.inr ?_
  rw [emitDone, hf hs, if_pos rfl]
  exact .refl hs.core

/-- `DeferOnDone` once a response has begun or the end is reported. -/
theorem Kept.defer {c d : Component (HttpClient L)} (h : Kept c d)
    (hb : Stays c d → d.own.begun = true ∨ d.finalized = true) : Kept c d.deferOnDone := by
  refine h.step rfl fun hs => Or.inr ⟨?_, rfl, rfl, rfl, id, id⟩
  have hcore := hs.core
  exact ⟨hcore.noDone, hcore.input, hcore.closed, hcore.complete, hcore.errno, hcore.reported,
    fun _ => hb hs, hcore.reinit, hcore.opened⟩

theorem Kept.clearDone {c d : Component (HttpClient L)} (h : Kept c d) : Kept c d.clearDone := by
  refine h.step rfl fun hs => Or.inr ⟨?_, rfl, rfl, rfl, id, id⟩
  have hcore := hs.core
  exact ⟨hcore.noDone, hcore.input, hcore.closed, hcore.complete, hcore.errno, hcore.reported,
    fun hd => absurd hd (by simp [Component.clearDone]), hcore.reinit, hcore.opened⟩

/-- `llhttp_pause` of a suspended component. -/
theorem Kept.pause {c d : Component (HttpClient L)} (h : Kept c d) (hsus : d.suspended = true) :
    Kept c (pause d) := by
  have hresp : d.own.responses = (Http.pause d).own.responses := by
    simp only [Http.pause, update]
    split <;> rfl
  refine h.step hresp fun hs => Or.inr ?_
  have hcore := hs.core
  simp only [Http.pause, update]
  split
  · exact ⟨⟨hcore.noDone, hcore.input, hcore.closed, hcore.complete, Or.inr (Or.inl rfl),
      hcore.reported, hcore.deferred, hcore.reinit, hcore.opened⟩, rfl, rfl, rfl, id,
      fun _ _ => Or.inl hsus⟩
  · exact .refl hcore

/-- `llhttp_resume`. -/
theorem Kept.unpause {c d : Component (HttpClient L)} (h : Kept c d) : Kept c (unpause d) := by
  have hresp : d.own.responses = (Http.unpause d).own.responses := by
    simp only [Http.unpause, update]
    split <;> rfl
  refine h.step hresp fun hs => Or.inr ?_
  have hcore := hs.core
  simp only [Http.unpause, update]
  split
  · refine ⟨⟨hcore.noDone, hcore.input, hcore.closed, hcore.complete, Or.inl rfl,
      hcore.reported, hcore.deferred, hcore.reinit, hcore.opened⟩, rfl, rfl, rfl, id, fun _ he => ?_⟩
    exact absurd he (by simp)
  · exact .refl hcore

theorem settled_unpause (c : Component (HttpClient L)) : Settled (unpause c) := by
  intro he
  simp only [Http.unpause, update] at he
  split at he
  · exact absurd he (by simp)
  · exact absurd he ‹_›

theorem Answered.congr {c c' : Component (HttpClient L)} (h : Answered c)
    (hr : c'.own.responses = c.own.responses) : Answered c' := by
  rw [Answered, hr]
  exact h

/-! ### The body callbacks -/

variable {deliver : Component (HttpClient L) → Component (HttpClient L)}

theorem kept_appendBody (bytes : List Byte) (c : Component (HttpClient L)) :
    Kept c (appendBodyToPending bytes c).1 := by
  rw [appendBodyToPending]
  split
  · exact kept_fail _
  · apply kept_own <;> rfl

section Callbacks

variable (hd : ∀ c, Kept c (deliver c))
include hd

theorem kept_onBody (bytes : List Byte) (c : Component (HttpClient L)) :
    Kept c (onBody deliver bytes c).1 := by
  simp only [onBody]
  split
  · apply kept_own <;> rfl
  · have happend := kept_appendBody bytes c
    split
    · exact happend
    · have hdel := happend.trans (hd _)
      split
      · exact hdel.pause ‹_›
      · exact hdel

omit hd in
theorem answered_reset {c : Component (HttpClient L)} (h : Answered c) :
    Answered (resetMessageState c.emitDone) := by
  refine h.congr ?_
  show c.emitDone.own.responses = c.own.responses
  rw [emitDone_own]

omit hd in
theorem answered_completeMessage {c : Component (HttpClient L)} (h : Answered c) :
    Answered (completeMessage c) := by
  rw [completeMessage]
  split
  · exact ((Kept.refl c).pause ‹_›).answered h
  · exact answered_reset h

theorem answered_succeed {c : Component (HttpClient L)} (h : Answered c) :
    Answered (succeed deliver c).1 := by
  simp only [succeed]
  split
  · exact answered_completeMessage h
  · have hdel := (hd c).answered h
    split
    · exact ((Kept.refl _).pause ‹_›).answered hdel
    · split
      · exact (kept_fail _).answered hdel
      · exact answered_completeMessage hdel

omit hd in
theorem answered_recordMessage {c : Component (HttpClient L)} (h : Answered c) :
    Answered (recordMessage c) := by
  obtain ⟨r, hr, hk⟩ := h
  exact ⟨r, List.mem_append_left _ hr, hk⟩

/-- **A complete message**: it is an answer, or an error is reported and the client closes. -/
theorem onMessageComplete_spec (c : Component (HttpClient L)) :
    (Answered c → Answered (onMessageComplete deliver c).1) ∧
      (Core c → Answered (onMessageComplete deliver c).1 ∨
        (onMessageComplete deliver c).2 = false ∧ Stays c (onMessageComplete deliver c).1 ∧
          (onMessageComplete deliver c).1.finalized = true) := by
  by_cases h300 : 300 ≤ c.own.statusCode
  · have heq : onMessageComplete deliver c = (emitHttpStatusError (recordMessage c), false) :=
      if_pos h300
    have hfail : Failed (recordMessage c) (emitHttpStatusError (recordMessage c)) :=
      (recordMessage c).failed _
    rw [heq]
    refine ⟨fun ha => (answered_recordMessage ha).congr (by rw [hfail.own]),
      fun h => Or.inr ⟨rfl, ?_, hfail.finalized⟩⟩
    refine ⟨⟨?_, ?_, fun _ => hfail.finalized, ?_, Or.inr (Or.inr hfail.finalized), ?_, ?_, ?_, ?_⟩,
      by rw [hfail.own]; rfl, by rw [hfail.own]; rfl, by rw [hfail.own]; rfl,
      fun _ => hfail.finalized, fun _ _ => Or.inr hfail.finalized⟩
    · intro hdone
      rcases hfail.signals _ hdone with hdone | ⟨_, he⟩
      · exact h.noDone hdone
      · exact Signal.noConfusion he
    · rw [hfail.own]; exact h.input
    · rw [hfail.own]; exact fun _ => ⟨h300, hfail.finalized, hfail.closed⟩
    · rw [hfail.own]; exact h.reported
    · exact fun _ => Or.inr hfail.finalized
    · rw [hfail.own]; exact h.reinit
    · exact fun hfin => absurd hfin (by rw [hfail.finalized]; simp)
  · have heq : onMessageComplete deliver c = succeed deliver (recordMessage c) := if_neg h300
    rw [heq]
    refine ⟨fun ha => answered_succeed hd (answered_recordMessage ha), fun h => Or.inl ?_⟩
    refine answered_succeed hd ⟨_, List.mem_append_right _ (List.mem_singleton.mpr rfl), fun hk => ?_⟩
    rw [← h.reported _ hk]
    exact Nat.lt_of_not_le h300

end Callbacks

/-! ### llhttp_execute -/

/-- Inside a run of the parser, in its state `s`: no message is complete. -/
def Running (s : L.State) (c : Component (HttpClient L)) : Prop :=
  Answered c ∨ Core c ∧ c.own.messageComplete = false ∧ Settled c ∧ c.own.parser = s

/-- Between two calls. -/
def Resting (c : Component (HttpClient L)) : Prop := Answered c ∨ Core c ∧ Settled c

/-- A callback has refused: it has reported an error. -/
def Refused (c : Component (HttpClient L)) : Prop :=
  Answered c ∨ Core c ∧ Settled c ∧ c.finalized = true

theorem Running.resting {s : L.State} {c : Component (HttpClient L)} (h : Running s c) : Resting c :=
  h.imp_right fun ⟨h1, _, h3, _⟩ => ⟨h1, h3⟩

theorem Running.self {s : L.State} {c : Component (HttpClient L)} (h : Running s c) :
    Running c.own.parser c :=
  h.imp_right fun ⟨h1, h2, h3, _⟩ => ⟨h1, h2, h3, rfl⟩

theorem Refused.resting {c : Component (HttpClient L)} (h : Refused c) : Resting c :=
  h.imp_right fun ⟨h1, h2, _⟩ => ⟨h1, h2⟩

theorem Resting.kept {c c' : Component (HttpClient L)} (h : Resting c) (hk : Kept c c') : Resting c' := by
  rcases h with ha | ⟨hc, hs⟩
  · exact Or.inl (hk.answered ha)
  · exact (hk.core hc).imp_right fun hst => ⟨hst.core, hst.settled hs⟩

/-- What keeps the invariant keeps a run going, if it does not complete the message. -/
theorem Running.kept {s : L.State} {c c' : Component (HttpClient L)} (h : Running s c) (hk : Kept c c')
    (hm : c.own.statusCode < 300 ∨ c'.own.messageComplete = c.own.messageComplete) : Running s c' := by
  rcases h with ha | ⟨hc, hmc, hset, hp⟩
  · exact Or.inl (hk.answered ha)
  · refine (hk.core hc).imp_right fun hst => ⟨hst.core, ?_, hst.settled hset, hst.parser.trans hp⟩
    rcases hm with hm | hm
    · by_contra hne
      have h300 := (hst.core.complete (by simpa using hne)).1
      rw [hst.status] at h300
      omega
    · exact hm.trans hmc

theorem running_onStatus {s : L.State} {c : Component (HttpClient L)} (h : Running s c) (code : ℕ) :
    Running s (onStatus code c) := by
  refine h.imp (fun ha => ha.congr rfl) fun ⟨hc, hmc, hset, hp⟩ => ⟨?_, hmc, hset, hp⟩
  refine ⟨hc.noDone, hc.input, hc.closed, fun hm => ?_, hc.errno, fun k hk => Option.some.inj hk,
    hc.deferred, hc.reinit, hc.opened⟩
  exact absurd (hmc.symm.trans hm) (by simp)

theorem running_onMessageBegin {s : L.State} {c : Component (HttpClient L)} (h : Running s c) :
    Running s (onMessageBegin c) := by
  refine h.imp (fun ha => ha.congr rfl) fun ⟨hc, hmc, hset, hp⟩ => ⟨?_, hmc, hset, hp⟩
  exact ⟨hc.noDone, hc.input, hc.closed, hc.complete, hc.errno, fun k hk => absurd hk (by
    simp [onMessageBegin, update]), hc.deferred, hc.reinit, hc.opened⟩

theorem kept_onHeaderField (bytes : List Byte) (c : Component (HttpClient L)) :
    Kept c (onHeaderField bytes c) := by
  simp only [onHeaderField, update]
  split <;> split <;> apply kept_own <;> rfl

theorem kept_onHeaderValue (bytes : List Byte) (c : Component (HttpClient L)) :
    Kept c (onHeaderValue bytes c) := by
  simp only [onHeaderValue, update]
  split <;> apply kept_own <;> rfl

theorem kept_onHeadersComplete (c : Component (HttpClient L)) : Kept c (onHeadersComplete c) := by
  simp only [onHeadersComplete, update]
  split <;> split <;> apply kept_own <;> rfl

/-- `OnBody` refuses only beyond the limit. -/
theorem onBody_refused {bytes : List Byte} {c : Component (HttpClient L)} (h : ¬300 ≤ c.own.statusCode)
    (hr : (onBody deliver bytes c).2 = false) : (onBody deliver bytes c).1.finalized = true := by
  cases happend : (appendBodyToPending bytes c).2 with
  | false =>
    have heq : onBody deliver bytes c = ((appendBodyToPending bytes c).1, false) := by
      simp only [onBody, if_neg h, happend, Bool.not_false, if_true]
    rw [heq]
    rw [appendBodyToPending] at happend ⊢
    split at happend
    · rw [if_pos ‹_›]
      exact (c.failed _).finalized
    · exact absurd happend (by simp)
  | true =>
    have heq : (onBody deliver bytes c).2 = true := by
      simp only [onBody, if_neg h, happend, Bool.not_true, Bool.false_eq_true, if_false]
    exact absurd (heq.symm.trans hr) (by simp)

section Execute

variable (hd : ∀ c, Kept c (deliver c))
include hd

/-- A data callback keeps the run going, or has reported an error. -/
theorem callSpan_spec {s : L.State} {c : Component (HttpClient L)} (h : Running s c) (kind : SpanKind)
    (bytes : List Byte) :
    let r := callSpan deliver kind bytes c
    Running s r.1 ∧ (r.2 = false → Refused r.1) := by
  cases kind with
  | status code => exact ⟨running_onStatus h code, fun hr => absurd hr (by simp [callSpan])⟩
  | headerField =>
    refine ⟨h.kept (kept_onHeaderField bytes c) (Or.inr ?_), fun hr => absurd hr (by simp [callSpan])⟩
    show (onHeaderField bytes c).own.messageComplete = c.own.messageComplete
    simp only [onHeaderField, update]
    split <;> rfl
  | headerValue =>
    exact ⟨h.kept (kept_onHeaderValue bytes c) (Or.inr rfl), fun hr => absurd hr (by simp [callSpan])⟩
  | body =>
    show Running s (onBody deliver bytes c).1 ∧ ((onBody deliver bytes c).2 = false →
      Refused (onBody deliver bytes c).1)
    by_cases h300 : 300 ≤ c.own.statusCode
    · have hm : (onBody deliver bytes c).1.own.messageComplete = c.own.messageComplete := by
        simp only [onBody, if_pos h300, update]
      refine ⟨h.kept (kept_onBody hd bytes c) (Or.inr hm), fun hr => absurd hr ?_⟩
      simp [onBody, h300]
    · have hrun := h.kept (kept_onBody hd bytes c) (Or.inl (Nat.lt_of_not_le h300))
      exact ⟨hrun, fun hr => hrun.imp_right fun ⟨h1, _, h3, _⟩ => ⟨h1, h3, onBody_refused h300 hr⟩⟩

theorem flush_spec {s : L.State} {c : Component (HttpClient L)} (h : Running s c) (span : Span) :
    let r := flush deliver span c
    Running s r.1 ∧ (r.2 = false → Refused r.1) := by
  cases span with
  | none => exact ⟨h, fun hr => absurd hr (by simp [flush])⟩
  | some p => exact callSpan_spec hd h p.1 p.2

theorem answered_flush {c : Component (HttpClient L)} (h : Answered c) (span : Span) :
    Answered (flush deliver span c).1 := by
  cases span with
  | none => exact h
  | some p =>
    obtain ⟨kind, bytes⟩ := p
    cases kind with
    | status code => exact h.congr rfl
    | headerField => exact (kept_onHeaderField bytes c).answered h
    | headerValue => exact (kept_onHeaderValue bytes c).answered h
    | body => exact (kept_onBody hd bytes c).answered h

theorem answered_notify {c : Component (HttpClient L)} (h : Answered c) (e : Event) :
    Answered (notify deliver e c).1 := by
  cases e with
  | span kind bytes => exact h
  | messageBegin => exact h.congr rfl
  | headersComplete => exact (kept_onHeadersComplete c).answered h
  | messageComplete => exact (onMessageComplete_spec hd c).1 h

theorem answered_callEvent {c : Component (HttpClient L)} (h : Answered c) (e : Event) (span : Span) :
    Answered (callEvent deliver e span c).1 := by
  have hflush := answered_flush hd h span
  cases e with
  | span kind bytes =>
    cases span with
    | none => exact h
    | some p =>
      simp only [callEvent]
      split
      · exact h
      · exact hflush
  | messageBegin | headersComplete | messageComplete =>
    simp only [callEvent]
    split
    · exact answered_notify hd hflush _
    · exact hflush

/-- Nothing in a run of the parser takes an answer back. -/
theorem answered_callEvents {c : Component (HttpClient L)} (h : Answered c) (es : List Event)
    (span : Span) : Answered (callEvents deliver es span c).1 := by
  induction es generalizing c span with
  | nil => exact h
  | cons e es ih =>
    have hone := answered_callEvent hd h e span
    simp only [callEvents]
    split
    · exact ih hone _
    · exact hone

/-- **One event** keeps the run going, and completes a message only by answering. -/
theorem callEvent_spec {s : L.State} {c : Component (HttpClient L)} (h : Running s c) (e : Event)
    (span : Span) :
    let r := callEvent deliver e span c
    (r.2.2 = true → Running s r.1 ∧ (e = .messageComplete → Answered r.1)) ∧
      (r.2.2 = false → Refused r.1) := by
  cases e with
  | span kind bytes =>
    cases span with
    | none => exact ⟨fun _ => ⟨h, fun he => Event.noConfusion he⟩, fun hr => absurd hr (by simp [callEvent])⟩
    | some p =>
      obtain ⟨kind', acc⟩ := p
      by_cases hk : kind = kind'
      · simp only [callEvent, if_pos hk]
        exact ⟨fun _ => ⟨h, fun he => Event.noConfusion he⟩, fun hr => absurd hr (by simp)⟩
      · obtain ⟨h1, h2⟩ := flush_spec hd h (some (kind', acc))
        simp only [callEvent, if_neg hk]
        exact ⟨fun _ => ⟨h1, fun he => Event.noConfusion he⟩, h2⟩
  | messageBegin =>
    obtain ⟨h1, h2⟩ := flush_spec hd h span
    simp only [callEvent, notify]
    split
    · exact ⟨fun _ => ⟨running_onMessageBegin h1, fun he => Event.noConfusion he⟩,
        fun hr => absurd hr (by simp)⟩
    · exact ⟨fun hr => absurd hr (by simp), fun _ => h2 (eq_false_of_ne_true ‹_›)⟩
  | headersComplete =>
    obtain ⟨h1, h2⟩ := flush_spec hd h span
    simp only [callEvent, notify]
    split
    · refine ⟨fun _ => ⟨h1.kept (kept_onHeadersComplete _) (Or.inr ?_),
        fun he => Event.noConfusion he⟩, fun hr => absurd hr (by simp)⟩
      simp only [onHeadersComplete, update]
      split <;> split <;> rfl
    · exact ⟨fun hr => absurd hr (by simp), fun _ => h2 (eq_false_of_ne_true ‹_›)⟩
  | messageComplete =>
    obtain ⟨h1, h2⟩ := flush_spec hd h span
    simp only [callEvent, notify]
    split
    · obtain ⟨m1, m2⟩ := onMessageComplete_spec hd (flush deliver span c).1
      rcases h1 with ha | ⟨hc, -, hset, -⟩
      · have ha' := m1 ha
        exact ⟨fun _ => ⟨Or.inl ha', fun _ => ha'⟩, fun _ => Or.inl ha'⟩
      · rcases m2 hc with ha' | ⟨hr, hst, hfin⟩
        · exact ⟨fun _ => ⟨Or.inl ha', fun _ => ha'⟩, fun _ => Or.inl ha'⟩
        · exact ⟨fun ht => absurd (hr.symm.trans ht) (by simp),
            fun _ => Or.inr ⟨hst.core, hst.settled hset, hfin⟩⟩
    · exact ⟨fun hr => absurd hr (by simp), fun _ => h2 (eq_false_of_ne_true ‹_›)⟩

theorem callEvents_spec {s : L.State} {c : Component (HttpClient L)} (h : Running s c)
    (es : List Event) (span : Span) :
    let r := callEvents deliver es span c
    (r.2.2 = true → Running s r.1 ∧ (.messageComplete ∈ es → Answered r.1)) ∧
      (r.2.2 = false → Refused r.1) := by
  induction es generalizing c span with
  | nil => exact ⟨fun _ => ⟨h, fun he => absurd he (by simp)⟩, fun hr => absurd hr (by simp [callEvents])⟩
  | cons e es ih =>
    obtain ⟨h1, h2⟩ := callEvent_spec hd h e span
    simp only [callEvents]
    split
    · rename_i hok
      obtain ⟨hrun, hans⟩ := h1 hok
      obtain ⟨i1, i2⟩ := ih hrun (callEvent deliver e span c).2.1
      refine ⟨fun ht => ⟨(i1 ht).1, fun hmem => ?_⟩, i2⟩
      rcases List.mem_cons.mp hmem with he | hmem
      · exact answered_callEvents hd (hans he.symm) es _
      · exact (i1 ht).2 hmem
    · rename_i hok
      exact ⟨fun ht => absurd ht hok, h2⟩

theorem callByte_spec {s : L.State} {c : Component (HttpClient L)} (h : Running s c)
    (es : List Event) (span : Span) :
    let r := callByte deliver es span c
    (r.2.2 = true → Running s r.1 ∧ (.messageComplete ∈ es → Answered r.1)) ∧
      (r.2.2 = false → Refused r.1) := by
  simp only [callByte]
  split
  · rename_i hes
    obtain ⟨h1, h2⟩ := flush_spec hd h span
    refine ⟨fun _ => ⟨h1, fun hm => ?_⟩, h2⟩
    rw [List.isEmpty_iff.mp hes] at hm
    exact absurd hm List.not_mem_nil
  · exact callEvents_spec hd h es span

omit hd in
theorem running_advance {s s' : L.State} {b : Byte} {es : List Event} {c : Component (HttpClient L)}
    (h : Running s c) (hn : L.next s b = .ok (s', es)) (hm : .messageComplete ∈ es → Answered c) :
    Running (advance s' es c).own.parser (advance s' es c) := by
  rcases h with ha | ⟨hc, hmc, hset, hp⟩
  · exact Or.inl (ha.congr rfl)
  by_cases hmem : .messageComplete ∈ es
  · exact Or.inl ((hm hmem).congr rfl)
  refine Or.inr ⟨⟨hc.noDone, hc.input, hc.closed, hc.complete, hc.errno, hc.reported, fun hdp => ?_, rfl,
    fun hf => ?_⟩, hmc, hset, rfl⟩
  · refine (hc.deferred hdp).imp_left fun hb => ?_
    show (c.own.begun || _) = true
    rw [hb]
    rfl
  · have hnext : (advance s' es c).own.parser = s' := by
      show (if c.own.reinit then L.restarted else s') = s'
      rw [hc.reinit]
      rfl
    obtain ⟨bytes, fs, ht, hno, hbegun⟩ := hc.opened hf
    refine ⟨bytes ++ [b], fs ++ es, ?_, ?_, fun hb => ?_⟩
    · rw [hnext, L.trace_append ht, hp, L.trace_cons hn]
      simp
    · exact fun hmem' => (List.mem_append.mp hmem').elim hno hmem
    · have hb' : (c.own.begun || decide (.messageBegin ∈ es)) = true := hb
      rcases Bool.or_eq_true_iff.mp hb' with hb' | hb'
      · exact List.mem_append_left _ (hbegun hb')
      · exact List.mem_append_right _ (of_decide_eq_true hb')

/-- How a call of the parser ends. -/
def Outcome (r : Component (HttpClient L) × Errno) : Prop :=
  match r.2 with
  | .ok | .paused => Running r.1.own.parser r.1
  | .user => Refused r.1
  | .other name => ∃ c, Running c.own.parser c ∧ r = stop (.other name) c

omit hd in
theorem Refused.stop {c : Component (HttpClient L)} (h : Refused c) : Refused (stop .user c).1 := by
  refine h.imp (fun ha => ha.congr rfl) fun ⟨hc, _, hf⟩ => ⟨?_, fun _ => Or.inr hf, hf⟩
  exact ⟨hc.noDone, hc.input, hc.closed, hc.complete, Or.inr (Or.inr hf), hc.reported, hc.deferred,
    hc.reinit, hc.opened⟩

theorem runBytes_spec {c : Component (HttpClient L)} (h : Running c.own.parser c) (bytes : List Byte)
    (span : Span) : Outcome (runBytes deliver bytes span c) := by
  induction bytes generalizing c span with
  | nil =>
    obtain ⟨h1, h2⟩ := flush_spec hd h span
    simp only [runBytes]
    split
    · exact h1.self
    · exact (h2 (eq_false_of_ne_true ‹_›)).stop
  | cons b bytes ih =>
    cases hn : L.next c.own.parser b with
    | error name =>
      simp only [runBytes, hn]
      exact ⟨c, h, rfl⟩
    | ok p =>
      obtain ⟨s', es⟩ := p
      obtain ⟨h1, h2⟩ := callByte_spec hd h es span
      simp only [runBytes, hn]
      split
      · rename_i hok
        obtain ⟨hrun, hans⟩ := h1 hok
        exact ih (running_advance hrun hn hans) _
      · exact (h2 (eq_false_of_ne_true ‹_›)).stop

/-- **`llhttp_execute`.** -/
theorem execute_spec {c : Component (HttpClient L)} (h : Running c.own.parser c) (chunk : List Byte) :
    Outcome (execute deliver chunk c) := by
  simp only [execute]
  split
  · rename_i herr
    cases hc : c.own.errno with
    | ok => exact absurd hc herr
    | paused => exact h
    | user =>
      refine h.imp_right fun ⟨hcore, _, hset, _⟩ => ⟨hcore, hset, ?_⟩
      rcases hcore.errno with he | he | he
      · exact absurd he herr
      · exact absurd (hc.symm.trans he) (by simp)
      · exact he
    | other name =>
      refine ⟨c, h, ?_⟩
      show (c, Errno.other name) = ({ c with own := { c.own with errno := .other name } }, Errno.other name)
      rw [← hc]
  · refine runBytes_spec hd (h.imp (fun ha => ha.congr rfl) fun ⟨hcore, hmc, hset, hp⟩ => ?_) chunk _
    exact ⟨⟨hcore.noDone, hcore.input, hcore.closed, hcore.complete, hcore.errno, hcore.reported,
      hcore.deferred, rfl, hcore.opened⟩, hmc, hset, hp⟩

omit hd in
/-- What the caller of the parser does about an error. -/
theorem handleParseError_spec {r : Component (HttpClient L) × Errno} (h : Outcome r)
    (hne : r.2 ≠ .paused) :
    let p := handleParseError r.2 r.1
    Resting p.1 ∧ (p.2 = false → Running p.1.own.parser p.1) := by
  obtain ⟨c, err⟩ := r
  cases err with
  | ok => exact ⟨Running.resting h, fun _ => h⟩
  | paused => exact absurd rfl hne
  | user => exact ⟨Refused.resting h, fun hr => absurd hr (by simp [handleParseError])⟩
  | other name =>
    obtain ⟨d, hrun, heq⟩ := h
    obtain rfl : c = (stop (.other name) d).1 := congrArg Prod.fst heq
    refine ⟨?_, fun hr => absurd hr (by simp [handleParseError])⟩
    have hf := (stop (.other name) d).1.failed { code := .httpError, message := name }
    refine hrun.imp (fun ha => ha.congr ?_) fun ⟨hcore, _⟩ => ?_
    · show ((stop _ d).1.emitError _).requestClose.own.responses = _
      rw [hf.own]
      rfl
    · exact ⟨hcore.fail _ hf, fun _ => Or.inr hf.finalized⟩

end Execute

/-! ### OnData -/

theorem copyToPendingInput_empty {source : Chain} (h : source.empty = true) (fuel : ℕ)
    (c : Component (HttpClient L)) : copyToPendingInput fuel source c = (c, source, true) := by
  cases fuel with
  | zero => rfl
  | succ fuel => rw [copyToPendingInput, if_pos h]

/-- **The null pointer**: as far as a paused parser is said to have come, there are no bytes left. -/
theorem consume_errorPos {data : Chain} (hwf : Chain.WF data) (hlen : (Chain.bytes data).length ≤ 2 ^ 63)
    {s : Segment} (hpos : 0 < (s.bytes.drop data.consumedOffset).length) :
    (data.consume id (sizeSub errorPos (s.addr + data.consumedOffset))).empty = true := by
  have haddr := s.addr_pos
  have hle := s.addr_le
  have hsize := s.size_le
  rw [List.length_drop] at hpos
  rw [Chain.empty_iff (Chain.wf_consumed hwf _), Chain.bytes_consumed hwf, List.drop_eq_nil_iff, sizeSub,
    if_neg (by rw [errorPos]; omega), errorPos]
  omega

section Data

variable (hd : ∀ c, Kept c (deliver c))
include hd

theorem answered_runBytes {c : Component (HttpClient L)} (h : Answered c) (bytes : List Byte)
    (span : Span) : Answered (runBytes deliver bytes span c).1 := by
  induction bytes generalizing c span with
  | nil =>
    have hflush := answered_flush hd h span
    simp only [runBytes]
    split
    · exact hflush
    · exact hflush.congr rfl
  | cons b bytes ih =>
    cases hn : L.next c.own.parser b with
    | error name =>
      simp only [runBytes, hn]
      exact h.congr rfl
    | ok p =>
      have hbyte : Answered (callByte deliver p.2 span c).1 := by
        simp only [callByte]
        split
        · exact answered_flush hd h span
        · exact answered_callEvents hd h p.2 span
      simp only [runBytes, hn]
      split
      · apply ih
        exact hbyte.congr rfl
      · exact hbyte.congr rfl

theorem answered_execute {c : Component (HttpClient L)} (h : Answered c) (chunk : List Byte) :
    Answered (execute deliver chunk c).1 := by
  simp only [execute]
  split
  · exact h
  · apply answered_runBytes hd
    exact h.congr rfl

omit hd in
theorem answered_handleParseError {c : Component (HttpClient L)} (h : Answered c) (err : Errno) :
    Answered (handleParseError err c).1 := by
  cases err with
  | ok | user => exact h
  | paused | other name => exact (kept_fail _).answered h

theorem answered_processPendingInput {c : Component (HttpClient L)} (h : Answered c) (fuel : ℕ) :
    Answered (processPendingInput deliver fuel c) := by
  induction fuel generalizing c with
  | zero => exact h
  | succ fuel ih =>
    rw [processPendingInput]
    split
    · exact h
    split
    · exact h
    rename_i s pos _
    have hexec := answered_execute hd h
      ((s.bytes.drop pos).take (c.own.pendingInput.contiguousSize id))
    have herr := answered_handleParseError hexec
      (execute deliver ((s.bytes.drop pos).take (c.own.pendingInput.contiguousSize id)) c).2
    dsimp only
    split
    · exact hexec.congr rfl
    · split
      · exact herr
      · exact ih (herr.congr rfl)

/-- There is no pending input before an answer. -/
theorem kept_processInput (c : Component (HttpClient L)) : Kept c (processInput deliver c) := by
  refine ⟨fun ha => answered_processPendingInput hd ha _, fun hc => Or.inr ?_⟩
  have hsame : processInput deliver c = c := by
    rw [processInput]
    cases c.own.pendingInput.size with
    | zero => rfl
    | succ n => rw [processPendingInput, if_pos hc.input]
  rw [hsame]
  exact .refl hc

theorem dataLoop_spec {c : Component (HttpClient L)} (h : Running c.own.parser c) (fuel : ℕ)
    (scripts : List (List Turn)) {data : Chain} (hwf : Chain.WF data)
    (hlen : (Chain.bytes data).length ≤ 2 ^ 63) :
    Resting (dataLoop deliver fuel scripts data c).1 := by
  induction fuel generalizing c scripts data with
  | zero => exact h.resting
  | succ fuel ih =>
    cases he : data.empty with
    | true =>
      simp only [dataLoop, he, if_true]
      exact h.resting
    | false =>
      obtain ⟨s, hat, hsize, hpos, -⟩ := Chain.front hwf he
      simp only [dataLoop, he, Bool.false_eq_true, if_false, hat]
      have hscript : Kept c (update (fun h => { h with script := scripts.headD [] }) c) := by
        apply kept_own <;> rfl
      have hrun := h.kept hscript (Or.inr rfl)
      have hout := execute_spec hd hrun ((s.bytes.drop data.consumedOffset).take (data.contiguousSize id))
      split
      · rename_i hpause
        rw [Outcome, hpause] at hout
        rw [copyToPendingInput_empty (consume_errorPos hwf hlen hpos)]
        exact Running.resting hout
      · rename_i hpause
        obtain ⟨h1, h2⟩ := handleParseError_spec hout hpause
        split
        · exact h1
        · refine ih (h2 (eq_false_of_ne_true ‹_›)) _ (Chain.wf_consumed hwf _) ?_
          rw [Chain.bytes_consumed hwf, List.length_drop]
          omega

/-- **`OnData`.** -/
theorem resting_onData {c : Component (HttpClient L)} (h : Resting c) (scripts : List (List Turn))
    {data : Chain} (hwf : Chain.WF data) (hlen : (Chain.bytes data).length ≤ 2 ^ 63) :
    Resting (onData deliver scripts data c).1 := by
  cases hcl : c.closed with
  | true => simpa only [onData, hcl, if_true] using h
  | false =>
    have hopen : (onData deliver scripts data c).1 = (dataBody deliver scripts data c.enter).1.leave := by
      simp only [onData, hcl, Bool.false_eq_true, if_false]
    rw [hopen]
    refine Resting.kept ?_ (kept_leave _)
    have henter := h.kept (kept_enter c)
    cases hin : c.own.pendingInput.empty with
    | true =>
      rw [dataBody, enter_own, if_pos hin]
      refine dataLoop_spec hd (henter.imp_right fun ⟨hcore, hset⟩ => ⟨hcore, ?_, hset, rfl⟩) _ _ hwf hlen
      by_contra hmc
      exact absurd (hcl.symm.trans (hcore.complete (by simpa using hmc)).2.2) (by simp)
    | false =>
      rcases henter with ha | ⟨hcore, -⟩
      · rw [dataBody, enter_own, if_neg (by simp [hin])]
        split
        · exact Or.inl ((kept_fail _).answered ha)
        · exact Or.inl ((kept_processInput hd _).answered (ha.congr rfl))
      · exact absurd (hin.symm.trans hcore.input) (by simp)

end Data

/-! ### The end of the connection -/

/-- `llhttp_finish`, as documented: inside a message it does not find everything closed. -/
def EofLaw (L : Llhttp) : Prop :=
  ∀ bytes s es, L.trace L.start bytes = some (s, es) → .messageBegin ∈ es → .messageComplete ∉ es →
    L.finish s ≠ .safe

/-- What is made of the answer of `on_message_complete`. -/
theorem handleParseError_callback (b : Bool) (c : Component (HttpClient L)) :
    handleParseError (if b then .ok else .user) c = (c, !b) := by
  cases b <;> rfl

section End

variable (hd : ∀ c, Kept c (deliver c))
include hd

theorem kept_finishMessage (c : Component (HttpClient L)) : Kept c (finishMessage deliver c).1 := by
  simp only [finishMessage, finish]
  split
  · exact .refl c
  split
  · exact .refl c
  split
  · exact .refl c
  · obtain ⟨h1, h2⟩ := onMessageComplete_spec hd c
    rw [handleParseError_callback]
    exact ⟨h1, fun hc => (h2 hc).imp_right fun h => h.2.1⟩
  · exact kept_fail _

/-- **The end inside a message** is an answer or an error, or nothing is decided in a suspended client. -/
theorem finishMessage_decides (law : EofLaw L) {c : Component (HttpClient L)} (h : Core c)
    (hset : Settled c) (hb : c.own.begun = true ∨ c.finalized = true)
    (hr : (finishMessage deliver c).2 = false) :
    Answered (finishMessage deliver c).1 ∨ (finishMessage deliver c).1.finalized = true ∨
      (finishMessage deliver c).1 = c ∧ c.suspended = true := by
  rcases (kept_finishMessage hd c).core h with ha | hst
  · exact Or.inl ha
  rcases Bool.eq_false_or_eq_true c.finalized with hf | hf
  · exact Or.inr (Or.inl (hst.finalized hf))
  have hmc : c.own.messageComplete = false := by
    by_contra hmc
    exact absurd (hf.symm.trans (h.complete (by simpa using hmc)).2.1) (by simp)
  have hbegun : c.own.begun = true := hb.resolve_right (by simp [hf])
  rcases h.errno with he | he | he
  · obtain ⟨bytes, es, ht, hno, hbe⟩ := h.opened hf
    have hlaw := law bytes _ es ht (hbe hbegun) hno
    simp only [finishMessage, hmc, finish, he] at hr ⊢
    cases hfin : L.finish c.own.parser with
    | safe => exact absurd hfin hlaw
    | safeWithCallback =>
      simp only [hfin, handleParseError_callback, Bool.false_eq_true, if_false, ne_eq, not_true] at hr ⊢
      rcases (onMessageComplete_spec hd c).2 h with ha | ⟨hfalse, -, -⟩
      · exact Or.inl ha
      · simp [hfalse] at hr
    | unsafeEof name => simp [hfin, handleParseError] at hr
  · rcases hset he with hs | hs
    · refine Or.inr (Or.inr ⟨?_, hs⟩)
      simp [finishMessage, hmc, finish, he, handleParseError]
    · exact absurd (hf.symm.trans hs) (by simp)
  · exact absurd (hf.symm.trans he) (by simp)

theorem answered_complete {c : Component (HttpClient L)} (h : Answered c) :
    Answered (complete deliver c) := by
  have hdone : ∀ d : Component (HttpClient L), Answered d → Answered d.emitDone.requestClose := by
    intro d ha
    exact ha.congr (by rw [requestClose_own, emitDone_own])
  have hdel := (hd c).answered h
  simp only [complete, completeWithFlush, flushPendingData]
  cases c.own.pendingChain.empty with
  | true => exact hdone c h
  | false =>
    simp only [Bool.false_eq_true, if_false]
    cases (deliver c).suspended with
    | true => exact hdel.congr rfl
    | false =>
      cases (deliver c).own.pendingChain.empty with
      | true => exact hdone _ hdel
      | false => exact (kept_fail _).answered hdel

/-- The common end, of what has reported its end already. -/
theorem kept_complete {c : Component (HttpClient L)} (hf : c.finalized = true) :
    Kept c (complete deliver c) := by
  have hdone : ∀ d, Kept c d → Kept c d.emitDone.requestClose := by
    intro d hk
    exact (hk.done fun hs => hs.finalized hf).close fun _ => emitDone_finalized d
  have hdel := hd c
  simp only [complete, completeWithFlush, flushPendingData]
  cases c.own.pendingChain.empty with
  | true => exact hdone c (.refl c)
  | false =>
    simp only [Bool.false_eq_true, if_false]
    cases (deliver c).suspended with
    | true => exact hdel.defer fun hs => Or.inr (hs.finalized hf)
    | false =>
      cases (deliver c).own.pendingChain.empty with
      | true => exact hdone _ hdel
      | false => exact hdel.trans (kept_fail _)

/-- An answer is not taken back by what follows `llhttp_finish`. -/
theorem answered_flushRest {c : Component (HttpClient L)} (h : Answered c) :
    Answered (flushRest deliver c) := by
  have hfin := (kept_finishMessage hd c).answered h
  simp only [flushRest]
  split
  · exact hfin
  · split
    · exact (kept_fail _).answered hfin
    · exact answered_complete hd hfin

/-- What follows `llhttp_finish` where the client is not suspended. -/
theorem flushRest_spec (law : EofLaw L) {c : Component (HttpClient L)} (h : Core c) (hset : Settled c)
    (hb : c.own.begun = true ∨ c.finalized = true) (hsus : c.suspended = false ∨ c.finalized = true) :
    Answered (flushRest deliver c) ∨ Stays c (flushRest deliver c) := by
  have hkept := kept_finishMessage hd c
  have hdec := finishMessage_decides hd law h hset hb
  simp only [flushRest]
  split
  · exact hkept.core h
  · rename_i hr
    split
    · exact (hkept.trans (kept_fail _)).core h
    · rcases hdec (eq_false_of_ne_true hr) with ha | hf | ⟨heq, hs⟩
      · exact Or.inl (answered_complete hd ha)
      · exact (hkept.trans (kept_complete hd hf)).core h
      · have hf : c.finalized = true := hsus.resolve_left (by simp [hs])
        rw [heq]
        exact (kept_complete hd hf).core h

theorem answered_flushAndComplete {c : Component (HttpClient L)} (h : Answered c) :
    Answered (flushAndComplete deliver c) := by
  have hin := (kept_processInput hd _).answered (((Kept.refl c).unpause).answered h)
  simp only [flushAndComplete]
  split
  · exact answered_flushRest hd h
  · split
    · exact hin.congr rfl
    · exact answered_flushRest hd hin

/-- **`OnDone`**: an answer, or nothing that claims one. -/
theorem resting_onDone (law : EofLaw L) {c : Component (HttpClient L)} (h : Resting c)
    (hb : c.own.begun = true ∨ c.closed = true) : Resting (onDone deliver c) := by
  rw [onDone, guarded]
  split
  · exact h
  · rename_i hcl
    refine Resting.kept ?_ (kept_leave _)
    have henter := h.kept (kept_enter c)
    have hbegun : c.enter.own.begun = true := hb.resolve_right hcl
    generalize c.enter = d at henter hbegun ⊢
    rcases henter with ha | ⟨hcore, hset⟩
    · refine Or.inl ?_
      have hin : Answered (if d.own.pendingInput.empty then d else processInput deliver (unpause d)) := by
        split
        · exact ha
        · exact (kept_processInput hd _).answered (((Kept.refl d).unpause).answered ha)
      simp only [doneBody]
      generalize (if d.own.pendingInput.empty then d else processInput deliver (unpause d)) = e at hin ⊢
      have hfin := (kept_finishMessage hd e).answered hin
      split
      · exact hfin
      split
      · exact (kept_fail _).answered hfin
      split
      · exact hfin.congr rfl
      · exact answered_complete hd hfin
    · have hkept := kept_finishMessage hd d
      have hdec := finishMessage_decides hd law hcore hset (Or.inl hbegun)
      have hresting : Resting (finishMessage deliver d).1 := Resting.kept (Or.inr ⟨hcore, hset⟩) hkept
      simp only [doneBody, hcore.input, if_true]
      split
      · exact hresting
      rename_i hr
      split
      · exact hresting.kept (kept_fail _)
      split
      · rcases hkept.core hcore with ha | hst
        · exact Or.inl (ha.congr rfl)
        · exact hresting.kept ((Kept.refl _).defer fun _ => Or.inl (hst.begun.trans hbegun))
      · rename_i hsus
        rcases hdec (eq_false_of_ne_true hr) with ha | hf | ⟨heq, hs⟩
        · exact Or.inl (answered_complete hd ha)
        · exact hresting.kept (kept_complete hd hf)
        · rw [heq] at hsus
          exact absurd hs hsus

/-! ### Resume -/

theorem kept_forwardData (c : Component (HttpClient L)) :
    Kept c (c.forwardData HttpClient.pendingChain deliver).1 := by
  rw [forwardData]
  split
  · exact .refl c
  · exact hd c

theorem kept_resumeParser (c : Component (HttpClient L)) : Kept c (resumeParser deliver c) :=
  ((Kept.refl c).unpause).trans (kept_processInput hd _)

theorem answered_processPending {c : Component (HttpClient L)}
    (h : Answered (c.forwardData HttpClient.pendingChain deliver).1) :
    Answered (processPending deliver c) := by
  simp only [processPending]
  generalize c.forwardData HttpClient.pendingChain deliver = r at h ⊢
  split
  · exact h
  split
  · have hagain := (kept_forwardData hd r.1).answered h
    split
    · exact hagain
    split
    · exact (kept_fail _).answered hagain
    · exact (kept_resumeParser hd _).answered (answered_reset hagain)
  · exact (kept_resumeParser hd _).answered h

omit hd in
theorem suspended_of_forwardData (c : Component (HttpClient L))
    (h : (c.forwardData HttpClient.pendingChain deliver).2 = true) :
    (c.forwardData HttpClient.pendingChain deliver).1.suspended = true := by
  rw [forwardData] at h ⊢
  split at h
  · exact absurd h (by simp)
  · rw [if_neg ‹_›]
    exact h

/-- **`ProcessPending`** leaves a parser that is not paused, if the client is not suspended again. -/
theorem processPending_spec {c : Component (HttpClient L)} (h : Core c) :
    Answered (processPending deliver c) ∨
      Stays c (processPending deliver c) ∧ Settled (processPending deliver c) := by
  rcases (kept_forwardData hd c).core h with ha | hst
  · exact Or.inl (answered_processPending hd ha)
  have hsus : (c.forwardData HttpClient.pendingChain deliver).2 = true →
      (c.forwardData HttpClient.pendingChain deliver).1.suspended = true := suspended_of_forwardData c
  simp only [processPending]
  generalize c.forwardData HttpClient.pendingChain deliver = r at hst hsus ⊢
  split
  · exact Or.inr ⟨hst, fun _ => Or.inl (hsus ‹_›)⟩
  split
  · rename_i hcond
    have h300 := (hst.core.complete hcond.1).1
    omega
  · rcases ((Kept.refl r.1).unpause).core hst.core with ha | hst'
    · exact Or.inl ((kept_processInput hd _).answered ha)
    · refine ((kept_processInput hd _).core hst'.core).imp_right fun hst'' => ?_
      exact ⟨(hst.trans hst').trans hst'', hst''.settled (settled_unpause _)⟩

theorem answered_completeDeferred {c : Component (HttpClient L)} (h : Answered c) :
    Answered (c.completeDeferred (flushAndComplete deliver)) := by
  rw [completeDeferred]
  split
  · apply answered_flushAndComplete hd
    exact h.congr rfl
  · exact h

/-- The deferred end of the connection. -/
theorem completeDeferred_spec (law : EofLaw L) {c : Component (HttpClient L)} (h : Core c)
    (hset : Settled c) :
    Answered (c.completeDeferred (flushAndComplete deliver)) ∨
      Stays c (c.completeDeferred (flushAndComplete deliver)) := by
  rw [completeDeferred]
  split
  · rename_i hcond
    rcases ((Kept.refl c).clearDone).core h with ha | hst
    · exact Or.inl (answered_flushAndComplete hd ha)
    · have heq : flushAndComplete deliver c.clearDone = flushRest deliver c.clearDone :=
        if_pos hst.core.input
      rw [heq]
      exact (flushRest_spec hd law hst.core hset (h.deferred hcond.1) (Or.inl hcond.2)).imp_right
        hst.trans
  · exact Or.inr (.refl h)

/-- **`Resume`** of a suspended client. -/
theorem kept_resume (law : EofLaw L) {c : Component (HttpClient L)} (hs : c.suspended = true) :
    Kept c (resume deliver c) := by
  rw [suspended_iff] at hs
  rw [resume]
  by_cases h1 : c.suspendCount = 1
  · cases hcl : c.closed with
    | true =>
      rw [resume_of_closed h1 hcl]
      refine ⟨fun ha => answered_completeDeferred hd (ha.congr rfl), fun hc => ?_⟩
      have hf := hc.closed hcl
      have hst : Stays c { c with suspendCount := 0 } :=
        ⟨hc.silent rfl rfl rfl rfl rfl rfl rfl rfl rfl rfl rfl rfl, rfl, rfl, rfl, id,
          fun _ _ => Or.inr hf⟩
      exact (completeDeferred_spec hd law hst.core fun _ => Or.inr hf).imp_right hst.trans
    | false =>
      rw [resume_of_eq h1 hcl]
      refine Kept.trans ?_ (kept_leave _)
      refine ⟨fun ha => ?_, fun hc => ?_⟩
      · apply answered_completeDeferred hd
        apply (kept_resumeUpstream _).answered
        apply answered_processPending hd
        exact (kept_forwardData hd _).answered (ha.congr rfl)
      · have hcore : Core c.resumed := hc.silent rfl rfl rfl rfl rfl rfl rfl rfl rfl rfl rfl rfl
        rcases processPending_spec hd hcore with ha | ⟨hst, hset⟩
        · exact Or.inl (answered_completeDeferred hd ((kept_resumeUpstream _).answered ha))
        have hst : Stays c (processPending deliver c.resumed) :=
          ⟨hst.core, hst.status, hst.parser, hst.begun, hst.finalized, fun _ => hset⟩
        rcases (kept_resumeUpstream _).core hst.core with ha | hup
        · exact Or.inl (answered_completeDeferred hd ha)
        · exact (completeDeferred_spec hd law hup.core (hup.settled hset)).imp_right (hst.trans hup).trans
  · rw [resume_of_ne h1]
    refine ⟨fun ha => ha.congr rfl, fun hc => Or.inr ⟨?_, rfl, rfl, rfl, id, fun _ _ => Or.inl ?_⟩⟩
    · exact hc.silent rfl rfl rfl rfl rfl rfl rfl rfl rfl rfl rfl rfl
    · rw [suspended_iff]
      show 0 < c.suspendCount - 1
      omega

end End

/-! ### The downstream and runs -/

theorem kept_takeTurn {ask : Ask → Component (HttpClient L) → Component (HttpClient L)}
    (hask : ∀ a c, Kept c (ask a c)) (c : Component (HttpClient L)) : Kept c (takeTurn ask c) := by
  have hasks : ∀ (asks : List Ask) (d : Component (HttpClient L)), Kept d (asks.foldl (fun c a => ask a c) d) := by
    intro asks
    induction asks with
    | nil => exact Kept.refl
    | cons a asks ih => exact fun d => (hask a d).trans (ih _)
  refine Kept.trans ?_ (hasks _ _)
  apply kept_own <;> rfl

/-- **The downstream**, whatever it calls while it is given data. -/
theorem kept_downstream (law : EofLaw L) (depth : ℕ) (c : Component (HttpClient L)) :
    Kept c (downstream depth c) := by
  induction depth generalizing c with
  | zero =>
    refine kept_takeTurn (fun a d => ?_) c
    cases a with
    | suspend => exact kept_suspend d
    | resume => exact .refl d
  | succ depth ih =>
    refine kept_takeTurn (fun a d => ?_) c
    cases a with
    | suspend => exact kept_suspend d
    | resume =>
      show Kept d (if d.suspended then resume (downstream depth) d else d)
      split
      · exact kept_resume ih law ‹_›
      · exact .refl d

/-- The end is not announced to an open client before a response has begun. -/
def EndsBegun (c : Component (HttpClient L)) : Input → Prop
  | .done _ => c.own.begun = true ∨ c.closed = true
  | _ => True

theorem kept_setScript (script : List Turn) (c : Component (HttpClient L)) :
    Kept c (update (fun h => { h with script := script }) c) := by
  apply kept_own <;> rfl

theorem kept_doClose (c : Component (HttpClient L)) : Kept c (doClose c) := by
  refine (Kept.refl c).step rfl fun hs => Or.inr ⟨?_, rfl, rfl, rfl, id, id⟩
  have hcore := hs.core
  exact ⟨hcore.noDone, rfl, hcore.closed, hcore.complete, hcore.errno, hcore.reported, hcore.deferred,
    hcore.reinit, hcore.opened⟩

/-- **One input.** -/
theorem step_resting (law : EofLaw L) (depth : ℕ) {c : Component (HttpClient L)} (h : Resting c)
    {i : Input} (hi : EndsBegun c i) : Resting (step depth c i) := by
  have hd := kept_downstream law depth
  cases i with
  | data segments fits scripts =>
    obtain ⟨hwf, hbytes⟩ := Chain.appendAll_spec (Chain.wf_empty none) segments
    refine resting_onData hd h scripts hwf ?_
    rw [hbytes]
    exact fits
  | done script => exact resting_onDone hd law (h.kept (kept_setScript script c)) hi
  | error e =>
    show Resting (guarded _ c)
    rw [guarded]
    split
    · exact h
    · exact ((h.kept (kept_enter c)).kept (kept_fail e)).kept (kept_leave _)
  | suspend => exact h.kept (kept_suspend c)
  | resume script =>
    show Resting (if c.suspended then _ else c)
    split
    · exact (h.kept (kept_setScript script c)).kept (kept_resume hd law ‹_›)
    · exact h
  | close =>
    show Resting (if c.closeScheduled then doClose c else c)
    split
    · exact h.kept (kept_doClose c)
    · exact h

theorem newClient_resting (L : Llhttp) : Resting (newClient L) := by
  refine Or.inr ⟨⟨List.not_mem_nil, rfl, ?_, ?_, Or.inl rfl, ?_, ?_, rfl, fun _ => ⟨[], [], rfl, ?_, ?_⟩⟩, ?_⟩
  · intro h
    exact absurd h (by simp [newClient])
  · intro h
    exact absurd h (by simp [newClient])
  · intro k h
    exact absurd h (by simp [newClient])
  · intro h
    exact absurd h (by simp [newClient])
  · exact List.not_mem_nil
  · intro h
    exact absurd h (by simp [newClient])
  · intro h
    exact absurd h (by simp [newClient])

/-- **A dropped connection is not reported as success**, in a run that is not told of the end before a
response has begun, and in which every complete response that is an error had its status reported. -/
theorem done_only_answered (L : Llhttp) (law : EofLaw L) (depth : ℕ) (inputs : List Input)
    (hends : Runs.Along EndsBegun (step depth) (newClient L) inputs)
    (hreported : ∀ r ∈ (Runs.run (step depth) (newClient L) inputs).own.responses,
      300 ≤ r.status → r.reported = some r.status)
    (hdone : .done ∈ (Runs.run (step depth) (newClient L) inputs).signals) :
    ∃ r ∈ (Runs.run (step depth) (newClient L) inputs).own.responses, r.status < 300 := by
  have hstep : ∀ (c : Component (HttpClient L)) i, Resting c → EndsBegun c i → Resting (step depth c i) :=
    fun _ _ h hi => step_resting law depth h hi
  have hrest := Runs.run_preserves hstep (newClient_resting L) hends
  rcases hrest with ⟨r, hr, hsmall⟩ | ⟨hcore, -⟩
  · refine ⟨r, hr, ?_⟩
    by_contra h300
    exact h300 (hsmall (hreported r hr (Nat.le_of_not_lt h300)))
  · exact absurd hdone hcore.noDone

/-! ### One response -/

theorem eofLaw_canned {code : ℕ} {rows : List (Byte × List Event)}
    (h : ∃ row ∈ rows, .messageComplete ∈ row.2) : EofLaw (canned code rows) := by
  intro bytes (s : ℕ) es ht hbegin hcomplete
  obtain ⟨hs, hle, rfl⟩ := canned_trace (i := 0) ht (Nat.zero_le _)
  rw [Nat.zero_add] at hs
  have hpos : 0 < bytes.length := by
    by_contra h0
    rw [Nat.eq_zero_of_not_pos h0] at hbegin
    exact absurd hbegin (by simp)
  have hlt : bytes.length < rows.length := by
    by_contra hge
    obtain ⟨row, hrow, hmem⟩ := h
    refine hcomplete (List.mem_flatMap.mpr ⟨row, ?_, hmem⟩)
    rw [List.drop_zero, List.take_of_length_le (Nat.le_of_not_lt hge)]
    exact hrow
  show (if 0 < s ∧ s < rows.length then Finish.unsafeEof "HPE_INVALID_EOF_STATE" else .safe) ≠ .safe
  rw [hs, if_pos ⟨hpos, hlt⟩]
  simp

/-- A response and its end. -/
def okInputs : List Input :=
  [.data [Segment.ofBytes (okResponse.map Prod.fst)] (by decide +kernel) [], .done []]

theorem done_only_answered_ok :
    ∃ r ∈ (Runs.run (step 0) (newClient (canned 200 okResponse)) okInputs).own.responses, r.status < 300 :=
  done_only_answered _ (eofLaw_canned (by decide)) 0 okInputs
    ⟨trivial, Or.inl (by decide +kernel), trivial⟩ (by decide +kernel) (by decide +kernel)

/-- **The connection closes before the first byte**: that is reported as success. -/
theorem not_done_only_answered :
    ¬∀ L : Llhttp, EofLaw L → ∀ (depth : ℕ) (inputs : List Input),
      .done ∈ (Runs.run (step depth) (newClient L) inputs).signals →
        ∃ r ∈ (Runs.run (step depth) (newClient L) inputs).own.responses, r.status < 300 := by
  intro h
  have hnone : (Runs.run (step 0) (newClient (canned 200 okResponse)) [.done []]).own.responses = [] := by
    decide +kernel
  obtain ⟨r, hr, -⟩ := h (canned 200 okResponse) (eofLaw_canned (by decide)) 0 [.done []] (by decide +kernel)
  rw [hnone] at hr
  exact List.not_mem_nil hr

end DbnPipe.Http
