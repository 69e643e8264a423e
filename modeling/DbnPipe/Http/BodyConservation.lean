import DbnPipe.Http.HttpClient
import DbnPipe.Library.Runs

/-!
# The body of a response

What the downstream gets of a response with a success status, when it takes everything it is offered.

* `OneResponse` — the bytes of one response, by what they announce; every piece of it is one again;
* `Listening` — the client between two bytes of it, **whatever is suspended or resumed**;
* `Carries` — inside `llhttp_execute`: what was delivered and the span that is being collected make up the
  body so far;
* `Quiet` — nothing is buffered;
* `body_conserved` — in a run in which a paused parser is never given bytes, the delivered bytes are the
  body of the bytes received, at every moment, and the end is reported only after all of them.
-/

namespace DbnPipe.Http

open Component

/-! ### One response -/

section Response

variable (L : Llhttp)

/-- Some prefix of the bytes completes a message. -/
def Completes (s : L.State) (bytes : List Byte) : Prop :=
  ∃ u es, L.trace s bytes = some (u, es) ∧ .messageComplete ∈ es

/-- The bytes of a response, or the rest of them from `s` on: no status of an error, and a message is
complete with the last byte at the earliest. -/
structure OneResponse (s : L.State) (bytes : List Byte) (t : L.State) (es : List Event) : Prop where
  traced : L.trace s bytes = some (t, es)
  status : ∀ k piece, .span (.status k) piece ∈ es → k < 300
  last : .messageComplete ∉ es.dropLast
  first : ∀ x y, bytes = x ++ y → y ≠ [] → ¬Completes L s x

variable {L}

theorem OneResponse.head {s t : L.State} {x y : List Byte} {es : List Event}
    (h : OneResponse L s (x ++ y) t es) : ∃ u fs, OneResponse L s x u fs ∧
      (y ≠ [] → .messageComplete ∉ fs) := by
  obtain ⟨u, fs, gs, h1, h2, rfl⟩ := L.trace_prefix h.traced
  have hno : y ≠ [] → .messageComplete ∉ fs := by
    intro hy hm
    exact h.first x y rfl hy ⟨u, fs, h1, hm⟩
  refine ⟨u, fs, ⟨h1, fun k p hp => h.status k p (List.mem_append_left _ hp), ?_, ?_⟩, hno⟩
  · by_cases hy : y = []
    · subst hy
      rw [Llhttp.trace_nil, Option.some.injEq, Prod.mk.injEq] at h2
      obtain ⟨rfl, rfl⟩ := h2
      simpa using h.last
    · exact fun hm => hno hy (List.dropLast_subset _ hm)
  · intro x' y' hx hy' hc
    refine h.first x' (y' ++ y) ?_ (by simp [hy']) hc
    rw [hx, List.append_assoc]

theorem OneResponse.tail {s t u : L.State} {x y : List Byte} {es fs : List Event}
    (h : OneResponse L s (x ++ y) t es) (hx : L.trace s x = some (u, fs)) :
    ∃ gs, OneResponse L u y t gs ∧ es = fs ++ gs := by
  obtain ⟨u', fs', gs, h1, h2, rfl⟩ := L.trace_prefix h.traced
  rw [hx, Option.some.injEq, Prod.mk.injEq] at h1
  obtain ⟨rfl, rfl⟩ := h1
  refine ⟨gs, ⟨h2, fun k p hp => h.status k p (List.mem_append_right _ hp), ?_, ?_⟩, rfl⟩
  · intro hm
    have hne : gs ≠ [] := by
      rintro rfl
      exact absurd hm (by simp)
    refine h.last ?_
    rw [List.dropLast_append_of_ne_nil hne]
    exact List.mem_append_right _ hm
  · rintro x' y' rfl hy' ⟨v, hs, hv, hm⟩
    refine h.first (x ++ x') y' (by rw [List.append_assoc]) hy' ⟨v, fs ++ hs, ?_, ?_⟩
    · rw [L.trace_append hx, hv]
      rfl
    · exact List.mem_append_right _ hm

end Response

variable {L : Llhttp}

/-! ### Between two bytes -/

/-- The downstream takes everything it is offered. -/
def TakesAll (script : List Turn) : Prop := ∀ t ∈ script, t.consume = Option.none

/-- The client inside a response that is not complete. -/
structure Listening (c : Component (HttpClient L)) : Prop where
  noDone : .done ∉ c.signals
  opened : c.closed = false
  notPending : c.closePending = false
  notScheduled : c.closeScheduled = false
  notDeferred : c.donePending = false
  incomplete : c.own.messageComplete = false
  input : c.own.pendingInput.empty = true
  reinit : c.own.reinit = false
  status : c.own.statusCode < 300
  errno : c.own.errno = .ok ∨ c.own.errno = .paused
  script : TakesAll c.own.script
  wf : Chain.WF c.own.pendingChain

/-- Nothing is buffered, and `d` is what was delivered. -/
structure Quiet (d : List Byte) (c : Component (HttpClient L)) : Prop where
  chain : c.own.pendingChain.empty = true
  input : c.own.pendingInput.empty = true
  delivered : c.own.delivered = d

/-- The client between two bytes, its parser in state `s`. -/
structure Idle (d : List Byte) (s : L.State) (c : Component (HttpClient L)) : Prop where
  listening : Listening c
  quiet : Quiet d c
  parser : c.own.parser = s

theorem Listening.congr {c c' : Component (HttpClient L)} (h : Listening c) (hown : c'.own = c.own)
    (h1 : c'.signals = c.signals) (h2 : c'.closed = c.closed) (h3 : c'.closePending = c.closePending)
    (h4 : c'.closeScheduled = c.closeScheduled) (h5 : c'.donePending = c.donePending) : Listening c' := by
  constructor
  · rw [h1]; exact h.noDone
  · rw [h2]; exact h.opened
  · rw [h3]; exact h.notPending
  · rw [h4]; exact h.notScheduled
  · rw [h5]; exact h.notDeferred
  all_goals rw [hown]
  · exact h.incomplete
  · exact h.input
  · exact h.reinit
  · exact h.status
  · exact h.errno
  · exact h.script
  · exact h.wf

theorem Quiet.congr {d : List Byte} {c c' : Component (HttpClient L)} (h : Quiet d c)
    (hown : c'.own = c.own) : Quiet d c' := by
  refine ⟨?_, ?_, ?_⟩ <;> rw [hown]
  · exact h.chain
  · exact h.input
  · exact h.delivered

theorem Idle.congr {d : List Byte} {s : L.State} {c c' : Component (HttpClient L)} (h : Idle d s c)
    (hown : c'.own = c.own) (h1 : c'.signals = c.signals) (h2 : c'.closed = c.closed)
    (h3 : c'.closePending = c.closePending) (h4 : c'.closeScheduled = c.closeScheduled)
    (h5 : c'.donePending = c.donePending) : Idle d s c' :=
  ⟨h.listening.congr hown h1 h2 h3 h4 h5, h.quiet.congr hown, by rw [hown]; exact h.parser⟩

section Idle

variable {d : List Byte} {s : L.State} {c : Component (HttpClient L)}

theorem Idle.enter (h : Idle d s c) : Idle d s c.enter := h.congr rfl rfl rfl rfl rfl rfl

theorem Idle.leave (h : Idle d s c) : Idle d s c.leave := by
  have hleave : c.leave = { c with processingCount := c.processingCount - 1 } := by
    rw [Component.leave]
    exact if_neg (by simp [h.listening.notPending])
  rw [hleave]
  exact h.congr rfl rfl rfl rfl rfl rfl

theorem Idle.suspend (h : Idle d s c) : Idle d s c.suspend := by
  rw [Component.suspend]
  split <;> exact h.congr rfl rfl rfl rfl rfl rfl

theorem Idle.resumeUpstream (h : Idle d s c) : Idle d s c.resumeUpstream := by
  rw [Component.resumeUpstream]
  split
  · exact h
  · exact h.congr rfl rfl rfl rfl rfl rfl

/-- Changing the state of the parser between `HPE_OK` and `HPE_PAUSED`. -/
theorem Idle.setErrno (h : Idle d s c) {err : Errno} (herr : err = .ok ∨ err = .paused) :
    Idle d s (update (fun x => { x with errno := err }) c) := by
  have hl := h.listening
  exact ⟨⟨hl.noDone, hl.opened, hl.notPending, hl.notScheduled, hl.notDeferred, hl.incomplete, hl.input,
    hl.reinit, hl.status, herr, hl.script, hl.wf⟩, ⟨h.quiet.chain, h.quiet.input, h.quiet.delivered⟩,
    h.parser⟩

theorem Idle.pause (h : Idle d s c) : Idle d s (pause c) := by
  by_cases herr : c.own.errno = .ok
  · have heq : Http.pause c = update (fun x => { x with errno := .paused }) c := by
      simp only [Http.pause, update, if_pos herr]
    rw [heq]
    exact h.setErrno (Or.inr rfl)
  · have heq : Http.pause c = c := by simp only [Http.pause, update, if_neg herr]
    rw [heq]
    exact h

theorem Idle.unpause (h : Idle d s c) : Idle d s (unpause c) := by
  by_cases herr : c.own.errno = .paused
  · have heq : Http.unpause c = update (fun x => { x with errno := .ok }) c := by
      simp only [Http.unpause, update, if_pos herr]
    rw [heq]
    exact h.setErrno (Or.inl rfl)
  · have heq : Http.unpause c = c := by simp only [Http.unpause, update, if_neg herr]
    rw [heq]
    exact h

variable (deliver : Component (HttpClient L) → Component (HttpClient L))

theorem processInput_of_empty (h : c.own.pendingInput.empty = true) : processInput deliver c = c := by
  rw [processInput]
  cases c.own.pendingInput.size with
  | zero => rfl
  | succ n => rw [processPendingInput, if_pos h]

theorem forwardData_of_empty (h : c.own.pendingChain.empty = true) :
    c.forwardData HttpClient.pendingChain deliver = (c, false) := by
  rw [Component.forwardData, if_pos h]

theorem Idle.resumeParser (h : Idle d s c) : Idle d s (resumeParser deliver c) := by
  have hun := h.unpause
  rw [Http.resumeParser, processInput_of_empty deliver hun.quiet.input]
  exact hun

theorem Idle.processPending (h : Idle d s c) : Idle d s (processPending deliver c) := by
  simp only [Http.processPending, forwardData_of_empty deliver h.quiet.chain, h.listening.incomplete,
    Bool.false_eq_true, if_false, false_and]
  exact h.resumeParser deliver

/-- **`Resume`** between two bytes. -/
theorem Idle.resume (h : Idle d s c) : Idle d s (resume deliver c) := by
  rw [Http.resume]
  by_cases h1 : c.suspendCount = 1
  · rw [resume_of_eq h1 h.listening.opened]
    have hstart : Idle d s c.resumed := h.congr rfl rfl rfl rfl rfl rfl
    have hpp := (hstart.processPending deliver).resumeUpstream
    have hdef : completeDeferred (flushAndComplete deliver)
        (Http.processPending deliver c.resumed).resumeUpstream =
        (Http.processPending deliver c.resumed).resumeUpstream := by
      rw [completeDeferred, if_neg (by simp [hpp.listening.notDeferred])]
    rw [hdef]
    exact hpp.leave
  · rw [resume_of_ne h1]
    exact h.congr rfl rfl rfl rfl rfl rfl

end Idle

/-! ### The downstream takes everything -/

theorem idle_takeTurn {ask : Ask → Component (HttpClient L) → Component (HttpClient L)}
    (hask : ∀ d s a c, Idle d s c → Idle d s (ask a c)) {c : Component (HttpClient L)} (h : Listening c) :
    Idle (c.own.delivered ++ Chain.bytes c.own.pendingChain) c.own.parser (takeTurn ask c) := by
  have hasks : ∀ (asks : List Ask) d s (c : Component (HttpClient L)), Idle d s c →
      Idle d s (asks.foldl (fun c a => ask a c) c) := by
    intro asks
    induction asks with
    | nil => exact fun _ _ _ h => h
    | cons a asks ih => exact fun d s c h => ih d s _ (hask d s a c h)
  have hall : (c.own.script.headD {}).consume = Option.none := by
    cases hs : c.own.script with
    | nil => rfl
    | cons t ts => exact h.script t (by rw [hs]; exact List.mem_cons_self)
  have hn : min (((c.own.script.headD {}).consume).getD c.own.pendingChain.size) c.own.pendingChain.size =
      (Chain.bytes c.own.pendingChain).length := by
    rw [hall, Option.getD_none, Nat.min_self, Chain.size_eq h.wf]
  rw [takeTurn]
  apply hasks
  rw [hn]
  have hempty : Chain.bytes (c.own.pendingChain.consume id (Chain.bytes c.own.pendingChain).length) = [] := by
    rw [Chain.bytes_consumed h.wf, List.drop_length]
  have hwf := Chain.wf_consumed h.wf (Chain.bytes c.own.pendingChain).length
  refine ⟨⟨h.noDone, h.opened, h.notPending, h.notScheduled, h.notDeferred, h.incomplete, h.input, h.reinit,
    h.status, h.errno, fun t ht => h.script t (List.mem_of_mem_tail ht), hwf⟩,
    ⟨(Chain.empty_iff hwf).mpr hempty, h.input, ?_⟩, rfl⟩
  show c.own.delivered ++ (Chain.bytes c.own.pendingChain).take (Chain.bytes c.own.pendingChain).length = _
  rw [List.take_length]

/-- **The downstream**, to any depth of nested `Resume` calls. -/
theorem idle_downstream (depth : ℕ) {c : Component (HttpClient L)} (h : Listening c) :
    Idle (c.own.delivered ++ Chain.bytes c.own.pendingChain) c.own.parser (downstream depth c) := by
  cases depth with
  | zero =>
    refine idle_takeTurn (fun d s a c hc => ?_) h
    cases a with
    | suspend => exact hc.suspend
    | resume => exact hc
  | succ depth =>
    refine idle_takeTurn (fun d s a c hc => ?_) h
    cases a with
    | suspend => exact hc.suspend
    | resume =>
      show Idle d s (if c.suspended then resume (downstream depth) c else c)
      split
      · exact hc.resume _
      · exact hc

/-! ### The callbacks -/

/-- The body bytes of a collected span. -/
def spanBody : Span → List Byte
  | some (.body, bytes) => bytes
  | _ => []

/-- A collected status is not that of an error. -/
def SpanOk (span : Span) : Prop := ∀ k bytes, span = some (.status k, bytes) → k < 300

/-- Inside `llhttp_execute`, before the parser takes the next byte in state `s`: delivered bytes and
collected span, of at most `n` bytes, make up `x`. -/
structure Carries (s : L.State) (x : List Byte) (n : ℕ) (span : Span) (c : Component (HttpClient L)) :
    Prop where
  idle : ∃ d, Idle d s c ∧ d ++ spanBody span = x
  short : (spanBody span).length ≤ n
  status : SpanOk span

variable {deliver : Component (HttpClient L) → Component (HttpClient L)}

section Callbacks

variable {d : List Byte} {s : L.State} {c : Component (HttpClient L)}

/-- The derived part changes in the fields of the message only. -/
theorem Idle.setMessage (h : Idle d s c) {own : HttpClient L} (h1 : own.messageComplete = false)
    (h2 : own.pendingInput = c.own.pendingInput) (h3 : own.reinit = c.own.reinit)
    (h4 : own.statusCode < 300) (h5 : own.errno = c.own.errno) (h6 : own.script = c.own.script)
    (h7 : own.pendingChain = c.own.pendingChain) (h8 : own.delivered = c.own.delivered)
    (h9 : own.parser = c.own.parser) : Idle d s (update (fun _ => own) c) := by
  have hl := h.listening
  refine ⟨⟨hl.noDone, hl.opened, hl.notPending, hl.notScheduled, hl.notDeferred, h1, ?_, ?_, h4, ?_, ?_, ?_⟩,
    ⟨?_, ?_, ?_⟩, ?_⟩
  · exact h2 ▸ hl.input
  · exact h3.trans hl.reinit
  · exact h5 ▸ hl.errno
  · exact h6 ▸ hl.script
  · exact h7 ▸ hl.wf
  · exact h7 ▸ h.quiet.chain
  · exact h2 ▸ h.quiet.input
  · exact h8.trans h.quiet.delivered
  · exact h9.trans h.parser

theorem idle_onStatus (h : Idle d s c) {code : ℕ} (hcode : code < 300) : Idle d s (onStatus code c) :=
  h.setMessage h.listening.incomplete rfl rfl hcode rfl rfl rfl rfl rfl

theorem idle_onMessageBegin (h : Idle d s c) : Idle d s (onMessageBegin c) :=
  h.setMessage h.listening.incomplete rfl rfl h.listening.status rfl rfl rfl rfl rfl

theorem idle_onHeaderField (h : Idle d s c) (bytes : List Byte) : Idle d s (onHeaderField bytes c) := by
  simp only [onHeaderField, update]
  split <;> split <;>
    exact h.setMessage h.listening.incomplete rfl rfl h.listening.status rfl rfl rfl rfl rfl

theorem idle_onHeaderValue (h : Idle d s c) (bytes : List Byte) : Idle d s (onHeaderValue bytes c) := by
  simp only [onHeaderValue, update]
  split <;> exact h.setMessage h.listening.incomplete rfl rfl h.listening.status rfl rfl rfl rfl rfl

theorem idle_onHeadersComplete (h : Idle d s c) : Idle d s (onHeadersComplete c) := by
  simp only [onHeadersComplete, update]
  split <;> split <;>
    exact h.setMessage h.listening.incomplete rfl rfl h.listening.status rfl rfl rfl rfl rfl

variable (hd : ∀ c : Component (HttpClient L), Listening c →
  Idle (c.own.delivered ++ Chain.bytes c.own.pendingChain) c.own.parser (deliver c))
include hd

/-- **`OnBody`** hands its bytes on. -/
theorem idle_onBody (h : Idle d s c) {bytes : List Byte} (hlen : bytes.length ≤ kMaxBufferedBody) :
    (onBody deliver bytes c).2 = true ∧ Idle (d ++ bytes) s (onBody deliver bytes c).1 := by
  have hsize : sizeSub kMaxBufferedBody c.own.pendingChain.size = kMaxBufferedBody := by
    rw [Chain.size_eq h.listening.wf, (Chain.empty_iff h.listening.wf).mp h.quiet.chain]
    rfl
  have happend : appendBodyToPending bytes c =
      (update (fun h => { h with pendingChain := Chain.appendBytes h.pendingChain bytes }) c, true) := by
    rw [appendBodyToPending, hsize, if_neg (by omega)]
  obtain ⟨hwf, hbytes⟩ := Chain.appendBytes_spec h.listening.wf bytes
  rw [(Chain.empty_iff h.listening.wf).mp h.quiet.chain, List.nil_append] at hbytes
  have hl := h.listening
  have hlisten : Listening (appendBodyToPending bytes c).1 := by
    rw [happend]
    exact ⟨hl.noDone, hl.opened, hl.notPending, hl.notScheduled, hl.notDeferred, hl.incomplete, hl.input,
      hl.reinit, hl.status, hl.errno, hl.script, hwf⟩
  have hdel := hd _ hlisten
  have hfst : (appendBodyToPending bytes c).1.own.delivered ++
      Chain.bytes (appendBodyToPending bytes c).1.own.pendingChain = d ++ bytes := by
    rw [happend]
    show c.own.delivered ++ Chain.bytes (Chain.appendBytes c.own.pendingChain bytes) = d ++ bytes
    rw [hbytes, h.quiet.delivered]
  have hparser : (appendBodyToPending bytes c).1.own.parser = s := by
    rw [happend]
    exact h.parser
  rw [hfst, hparser] at hdel
  have hok : (appendBodyToPending bytes c).2 = true := by rw [happend]
  have hbody : onBody deliver bytes c =
      (if (deliver (appendBodyToPending bytes c).1).suspended then
        pause (deliver (appendBodyToPending bytes c).1) else deliver (appendBodyToPending bytes c).1, true) := by
    simp only [onBody, if_neg (Nat.not_le.mpr hl.status), hok, Bool.not_true, Bool.false_eq_true, if_false]
  rw [hbody]
  refine ⟨rfl, ?_⟩
  show Idle (d ++ bytes) s (if _ then _ else _)
  split
  · exact hdel.pause
  · exact hdel

/-- The collected span is handed over. -/
theorem idle_flush {x : List Byte} {n : ℕ} {span : Span} (h : Carries s x n span c)
    (hn : n ≤ kMaxBufferedBody) :
    (flush deliver span c).2 = true ∧ Idle x s (flush deliver span c).1 := by
  obtain ⟨⟨d, hidle, rfl⟩, hshort, hstatus⟩ := h
  cases span with
  | none =>
    refine ⟨rfl, ?_⟩
    show Idle (d ++ []) s c
    rw [List.append_nil]
    exact hidle
  | some p =>
    obtain ⟨kind, bytes⟩ := p
    cases kind with
    | status code =>
      refine ⟨rfl, ?_⟩
      show Idle (d ++ []) s (onStatus code c)
      rw [List.append_nil]
      exact idle_onStatus hidle (hstatus code bytes rfl)
    | headerField =>
      refine ⟨rfl, ?_⟩
      show Idle (d ++ []) s (onHeaderField bytes c)
      rw [List.append_nil]
      exact idle_onHeaderField hidle bytes
    | headerValue =>
      refine ⟨rfl, ?_⟩
      show Idle (d ++ []) s (onHeaderValue bytes c)
      rw [List.append_nil]
      exact idle_onHeaderValue hidle bytes
    | body => exact idle_onBody hd hidle (Nat.le_trans hshort hn)

omit hd in
theorem Idle.carries {x : List Byte} (h : Idle x s c) (n : ℕ) : Carries s x n Option.none c :=
  ⟨⟨x, h, List.append_nil x⟩, Nat.zero_le n, fun _ _ he => absurd he (by simp)⟩

omit hd in
/-- A piece goes into the collected span. -/
theorem Carries.collect {x acc bytes : List Byte} {n : ℕ} {kind : SpanKind}
    (h : Carries s x n (some (kind, acc)) c) :
    Carries s (x ++ (Event.span kind bytes).body) (n + (Event.span kind bytes).body.length)
      (some (kind, acc ++ bytes)) c := by
  obtain ⟨⟨d, hidle, rfl⟩, hshort, hstatus⟩ := h
  have hspan : spanBody (some (kind, acc ++ bytes)) =
      spanBody (some (kind, acc)) ++ (Event.span kind bytes).body := by
    cases kind <;> rfl
  refine ⟨⟨d, hidle, by rw [hspan, List.append_assoc]⟩, ?_, ?_⟩
  · rw [hspan, List.length_append]
    omega
  · intro k piece he
    rw [Option.some.injEq, Prod.mk.injEq] at he
    exact hstatus k acc (by rw [he.1])

omit hd in
/-- A piece begins a span. -/
theorem Idle.collect {x bytes : List Byte} {kind : SpanKind} (h : Idle x s c) (n : ℕ)
    (hk : ∀ k, kind = .status k → k < 300) :
    Carries s (x ++ (Event.span kind bytes).body) (n + (Event.span kind bytes).body.length)
      (some (kind, bytes)) c := by
  have hspan : spanBody (some (kind, bytes)) = (Event.span kind bytes).body := by
    cases kind <;> rfl
  refine ⟨⟨x, h, by rw [hspan]⟩, by rw [hspan]; omega, fun k piece he => ?_⟩
  rw [Option.some.injEq, Prod.mk.injEq] at he
  exact hk k he.1

/-- **One event** that does not complete the message. -/
theorem carries_callEvent {x : List Byte} {n : ℕ} {span : Span} (h : Carries s x n span c)
    (hn : n ≤ kMaxBufferedBody) {e : Event} (he : e ≠ .messageComplete)
    (hk : ∀ k piece, e = .span (.status k) piece → k < 300) :
    let r := callEvent deliver e span c
    r.2.2 = true ∧ Carries s (x ++ e.body) (n + e.body.length) r.2.1 r.1 := by
  obtain ⟨hok, hidle⟩ := idle_flush hd h hn
  cases e with
  | span kind bytes =>
    have hkind : ∀ k, kind = .status k → k < 300 := by
      intro k hkk
      exact hk k bytes (by rw [hkk])
    cases span with
    | none =>
      refine ⟨rfl, Idle.collect ?_ n hkind⟩
      exact hidle
    | some p =>
      obtain ⟨kind', acc⟩ := p
      by_cases hkk : kind = kind'
      · subst hkk
        simp only [callEvent, if_true]
        exact ⟨trivial, h.collect⟩
      · simp only [callEvent, if_neg hkk]
        exact ⟨hok, hidle.collect n hkind⟩
  | messageBegin =>
    simp only [callEvent, hok, if_true, notify]
    refine ⟨trivial, ?_⟩
    show Carries s (x ++ []) n Option.none _
    rw [List.append_nil]
    exact (idle_onMessageBegin hidle).carries n
  | headersComplete =>
    simp only [callEvent, hok, if_true, notify]
    refine ⟨trivial, ?_⟩
    show Carries s (x ++ []) n Option.none _
    rw [List.append_nil]
    exact (idle_onHeadersComplete hidle).carries n
  | messageComplete => exact absurd rfl he

end Callbacks

/-! ### Nothing buffered -/

section Quiet

variable {d : List Byte} {c : Component (HttpClient L)}

/-- The derived part changes outside the buffers. -/
theorem Quiet.setOwn (h : Quiet d c) {c' : Component (HttpClient L)}
    (h1 : c'.own.pendingChain = c.own.pendingChain) (h2 : c'.own.pendingInput = c.own.pendingInput)
    (h3 : c'.own.delivered = c.own.delivered) : Quiet d c' :=
  ⟨by rw [h1]; exact h.chain, by rw [h2]; exact h.input, h3.trans h.delivered⟩

theorem Quiet.fail (h : Quiet d c) (e : Error) : Quiet d (c.emitError e).requestClose :=
  h.congr (c.failed e).own

theorem Quiet.pause (h : Quiet d c) : Quiet d (pause c) := by
  simp only [Http.pause, update]
  split <;> exact h.setOwn rfl rfl rfl

theorem Quiet.unpause (h : Quiet d c) : Quiet d (unpause c) := by
  simp only [Http.unpause, update]
  split <;> exact h.setOwn rfl rfl rfl

theorem Quiet.reset (h : Quiet d c) : Quiet d (resetMessageState c) := ⟨rfl, h.input, h.delivered⟩

theorem quiet_completeMessage (h : Quiet d c) : Quiet d (completeMessage c) := by
  rw [completeMessage]
  split
  · exact h.pause
  · exact (h.congr c.emitDone_own).reset

theorem succeed_of_quiet (h : Quiet d c) : succeed deliver c = (completeMessage c, true) := by
  rw [succeed, if_pos h.chain]

theorem quiet_onMessageComplete (h : Quiet d c) : Quiet d (onMessageComplete deliver c).1 := by
  have hrec : Quiet d (recordMessage c) := h.setOwn rfl rfl rfl
  rw [onMessageComplete]
  split
  · exact hrec.fail _
  · rw [succeed_of_quiet hrec]
    exact quiet_completeMessage hrec

/-- A message with a success status is complete. -/
theorem onMessageComplete_success {s : L.State} (h : Idle d s c) :
    (onMessageComplete deliver c).2 = true := by
  have hrec : Quiet d (recordMessage c) := h.quiet.setOwn rfl rfl rfl
  have hstatus : ¬300 ≤ (recordMessage c).own.statusCode := Nat.not_le.mpr h.listening.status
  simp only [onMessageComplete, if_neg hstatus, succeed_of_quiet hrec]

theorem Quiet.handleParseError (h : Quiet d c) (err : Errno) : Quiet d (handleParseError err c).1 := by
  cases err with
  | ok | user => exact h
  | paused | other name => exact h.fail _

theorem Quiet.finishMessage (h : Quiet d c) : Quiet d (finishMessage deliver c).1 := by
  simp only [Http.finishMessage, finish]
  split
  · exact h
  · apply Quiet.handleParseError
    split
    · exact h
    · split
      · exact h
      · exact quiet_onMessageComplete h
      · exact h

theorem Quiet.complete (h : Quiet d c) : Quiet d (complete deliver c) := by
  have hflush : c.completeWithFlush HttpClient.pendingChain deliver = (c.emitDone, true) := by
    simp only [completeWithFlush, flushPendingData, h.chain, if_true, Bool.false_eq_true, if_false]
  simp only [Http.complete, hflush, if_true]
  exact h.congr (by rw [requestClose_own, emitDone_own])

theorem Quiet.flushRest (h : Quiet d c) : Quiet d (flushRest deliver c) := by
  have hfin : Quiet d (Http.finishMessage deliver c).1 := h.finishMessage
  simp only [Http.flushRest]
  split
  · exact hfin
  split
  · exact hfin.fail _
  · exact hfin.complete

theorem Quiet.flushAndComplete (h : Quiet d c) : Quiet d (flushAndComplete deliver c) := by
  rw [Http.flushAndComplete, if_pos h.input]
  exact h.flushRest

theorem Quiet.resumeParser (h : Quiet d c) : Quiet d (resumeParser deliver c) := by
  have hun := h.unpause
  rw [Http.resumeParser, processInput_of_empty deliver hun.input]
  exact hun

theorem Quiet.processPending (h : Quiet d c) : Quiet d (processPending deliver c) := by
  simp only [Http.processPending, forwardData_of_empty deliver h.chain, Bool.false_eq_true, if_false,
    h.chain, Bool.not_true]
  split
  · exact ((h.congr c.emitDone_own).reset).resumeParser
  · exact h.resumeParser

/-- **The end of the connection.** -/
theorem Quiet.onDone (h : Quiet d c) : Quiet d (onDone deliver c) := by
  rw [Http.onDone, guarded]
  split
  · exact h
  · refine Quiet.congr (c := doneBody deliver c.enter) ?_ (leave_own _)
    have henter : Quiet d c.enter := h.congr rfl
    have hfin : Quiet d (Http.finishMessage deliver c.enter).1 := henter.finishMessage
    simp only [doneBody, henter.input, if_true]
    split
    · exact hfin
    split
    · exact hfin.fail _
    split
    · exact hfin.congr rfl
    · exact hfin.complete

theorem Quiet.completeDeferred (h : Quiet d c) :
    Quiet d (c.completeDeferred (Http.flushAndComplete deliver)) := by
  rw [Component.completeDeferred]
  split
  · apply Quiet.flushAndComplete
    exact h.congr rfl
  · exact h

theorem Quiet.resume (h : Quiet d c) : Quiet d (resume deliver c) := by
  rw [Http.resume]
  by_cases h1 : c.suspendCount = 1
  · cases hcl : c.closed with
    | true =>
      rw [resume_of_closed h1 hcl]
      apply Quiet.completeDeferred
      exact h.congr rfl
    | false =>
      rw [resume_of_eq h1 hcl]
      have hpp : Quiet d (Http.processPending deliver c.resumed) := Quiet.processPending (h.congr rfl)
      have hup : Quiet d (Http.processPending deliver c.resumed).resumeUpstream := by
        refine hpp.congr ?_
        rw [Component.resumeUpstream]
        split <;> rfl
      exact hup.completeDeferred.congr (leave_own _)
  · rw [resume_of_ne h1]
    exact h.congr rfl

end Quiet

/-! ### llhttp_execute -/

/-- A byte announces itself as body at most, as spans lie in the chunk. -/
def SpanLaw (L : Llhttp) : Prop :=
  ∀ s b s' es, L.next s b = .ok (s', es) → (bodyOf es).length ≤ 1

theorem ends_of_mem {α : Type} {a : α} {l : List α} (h : a ∈ l) (h' : a ∉ l.dropLast) :
    ∃ pre, l = pre ++ [a] := by
  have hne : l ≠ [] := List.ne_nil_of_mem h
  refine ⟨l.dropLast, ?_⟩
  rw [← List.dropLast_append_getLast hne] at h
  rcases List.mem_append.mp h with h | h
  · exact absurd h h'
  · rw [List.mem_singleton.mp h, List.dropLast_append_getLast hne]

section Execute

variable {s : L.State} {c : Component (HttpClient L)}

theorem Idle.advance {d : List Byte} (h : Idle d s c) (s' : L.State) (es : List Event) :
    Idle d s' (advance s' es c) := by
  have hl := h.listening
  refine ⟨⟨hl.noDone, hl.opened, hl.notPending, hl.notScheduled, hl.notDeferred, hl.incomplete, hl.input,
    rfl, hl.status, hl.errno, hl.script, hl.wf⟩, h.quiet.setOwn rfl rfl rfl, ?_⟩
  show (if c.own.reinit then L.restarted else s') = s'
  rw [hl.reinit]
  rfl

theorem Carries.advance {x : List Byte} {n : ℕ} {span : Span} (h : Carries s x n span c) (s' : L.State)
    (es : List Event) : Carries s' x n span (Http.advance s' es c) := by
  obtain ⟨⟨d, hidle, hx⟩, hshort, hstatus⟩ := h
  exact ⟨⟨d, hidle.advance s' es, hx⟩, hshort, hstatus⟩

theorem callEvents_append (es fs : List Event) (span : Span) :
    callEvents deliver (es ++ fs) span c =
      if (callEvents deliver es span c).2.2 then
        callEvents deliver fs (callEvents deliver es span c).2.1 (callEvents deliver es span c).1
      else callEvents deliver es span c := by
  induction es generalizing span c with
  | nil => rfl
  | cons e es ih =>
    rw [List.cons_append, callEvents, callEvents]
    split
    · exact ih _
    · rfl

variable (hd : ∀ c : Component (HttpClient L), Listening c →
  Idle (c.own.delivered ++ Chain.bytes c.own.pendingChain) c.own.parser (deliver c))
include hd

/-- **The events of a byte** that does not complete the message. -/
theorem carries_callEvents {x : List Byte} {n : ℕ} {span : Span} (h : Carries s x n span c)
    (es : List Event) (hn : n + (bodyOf es).length ≤ kMaxBufferedBody) (hno : .messageComplete ∉ es)
    (hk : ∀ k piece, .span (.status k) piece ∈ es → k < 300) :
    let r := callEvents deliver es span c
    r.2.2 = true ∧ Carries s (x ++ bodyOf es) (n + (bodyOf es).length) r.2.1 r.1 := by
  induction es generalizing x n span c with
  | nil =>
    refine ⟨rfl, ?_⟩
    show Carries s (x ++ []) n span c
    rw [List.append_nil]
    exact h
  | cons e es ih =>
    rw [bodyOf_cons, List.length_append] at hn
    obtain ⟨hok, hone⟩ := carries_callEvent hd h (by omega) (e := e)
      (fun he => hno (he ▸ List.mem_cons_self)) (fun k piece he => hk k piece (he ▸ List.mem_cons_self))
    simp only [callEvents, hok, if_true]
    have hrest := ih hone (by omega) (fun hm => hno (List.mem_cons_of_mem _ hm))
      (fun k piece hm => hk k piece (List.mem_cons_of_mem _ hm))
    rw [bodyOf_cons, List.length_append, ← List.append_assoc, ← Nat.add_assoc]
    exact hrest

theorem carries_callByte {x : List Byte} {n : ℕ} {span : Span} (h : Carries s x n span c)
    (es : List Event) (hn : n + (bodyOf es).length ≤ kMaxBufferedBody) (hno : .messageComplete ∉ es)
    (hk : ∀ k piece, .span (.status k) piece ∈ es → k < 300) :
    let r := callByte deliver es span c
    r.2.2 = true ∧ Carries s (x ++ bodyOf es) (n + (bodyOf es).length) r.2.1 r.1 := by
  simp only [callByte]
  split
  · rename_i hes
    rw [List.isEmpty_iff.mp hes] at hn ⊢
    obtain ⟨hok, hidle⟩ := idle_flush hd h hn
    refine ⟨hok, ?_⟩
    show Carries s (x ++ []) n Option.none _
    rw [List.append_nil]
    exact hidle.carries n
  · exact carries_callEvents hd h es hn hno hk

/-- **The last byte** completes the message. -/
theorem quiet_callByte {x : List Byte} {n : ℕ} {span : Span} (h : Carries s x n span c)
    (es : List Event) (hn : n + (bodyOf es).length ≤ kMaxBufferedBody) (hno : .messageComplete ∉ es)
    (hk : ∀ k piece, .span (.status k) piece ∈ es → k < 300) :
    let r := callByte deliver (es ++ [.messageComplete]) span c
    r.2.2 = true ∧ r.2.1 = Option.none ∧ Quiet (x ++ bodyOf es) r.1 := by
  obtain ⟨hok, hcar⟩ := carries_callEvents hd h es hn hno hk
  obtain ⟨hfok, hidle⟩ := idle_flush hd hcar hn
  have hbyte : callByte deliver (es ++ [.messageComplete]) span c =
      callEvents deliver (es ++ [.messageComplete]) span c := by
    rw [callByte, if_neg (by simp)]
  rw [hbyte, callEvents_append, hok, if_pos rfl]
  simp only [callEvents, callEvent, hfok, if_true, notify, onMessageComplete_success hidle]
  exact ⟨trivial, trivial, quiet_onMessageComplete hidle.quiet⟩

/-- **A chunk** of a response. -/
theorem runBytes_conserves (law : SpanLaw L) {x : List Byte} {n : ℕ} {span : Span} (h : Carries s x n span c)
    {bytes : List Byte} {t : L.State} {es : List Event} (hr : OneResponse L s bytes t es)
    (hn : n + bytes.length ≤ kMaxBufferedBody) :
    let r := runBytes deliver bytes span c
    r.2 = .ok ∧ Quiet (x ++ bodyOf es) r.1 ∧ (.messageComplete ∉ es → Idle (x ++ bodyOf es) t r.1) := by
  induction bytes generalizing x n span c s es with
  | nil =>
    have htrace := hr.traced
    rw [Llhttp.trace_nil, Option.some.injEq, Prod.mk.injEq] at htrace
    obtain ⟨rfl, rfl⟩ := htrace
    obtain ⟨hok, hidle⟩ := idle_flush hd h hn
    rw [runBytes]
    simp only [hok, if_true, bodyOf_nil, List.append_nil]
    exact ⟨trivial, hidle.quiet, fun _ => hidle⟩
  | cons b bytes ih =>
    obtain ⟨s', es₁, es₂, hnext, htail, rfl⟩ := L.trace_cons_inv hr.traced
    have hone : L.trace s [b] = some (s', es₁) := by
      rw [L.trace_cons hnext, Llhttp.trace_nil, Option.map_some, List.append_nil]
    have hshort := law s b s' es₁ hnext
    rw [List.length_cons] at hn
    have hparser : c.own.parser = s := by
      obtain ⟨⟨d, hidle, -⟩, -, -⟩ := h
      exact hidle.parser
    simp only [runBytes, hparser, hnext]
    by_cases hlast : .messageComplete ∈ es₁
    · have hnil : bytes = [] := by
        by_contra hne
        exact hr.first [b] bytes rfl hne ⟨s', es₁, hone, hlast⟩
      subst hnil
      rw [Llhttp.trace_nil, Option.some.injEq, Prod.mk.injEq] at htail
      obtain ⟨rfl, rfl⟩ := htail
      have hdrop := hr.last
      rw [List.append_nil] at hdrop ⊢
      obtain ⟨pre, rfl⟩ := ends_of_mem hlast hdrop
      rw [List.dropLast_concat] at hdrop
      have hbody : bodyOf (pre ++ [.messageComplete]) = bodyOf pre := by
        rw [bodyOf_append]
        exact List.append_nil _
      rw [hbody] at hshort ⊢
      obtain ⟨hok, hspan, hquiet⟩ := quiet_callByte hd h pre (by omega) hdrop
        (fun k piece hm => hr.status k piece (by simp [hm]))
      rw [if_pos hok, hspan]
      refine ⟨rfl, hquiet.setOwn rfl rfl rfl, fun hm => absurd hlast hm⟩
    · obtain ⟨hok, hcar⟩ := carries_callByte hd h es₁ (by omega) hlast
        (fun k piece hm => hr.status k piece (List.mem_append_left _ hm))
      obtain ⟨gs, htl, hgs⟩ := OneResponse.tail (x := [b]) (y := bytes) hr hone
      obtain rfl := List.append_cancel_left hgs
      rw [if_pos hok]
      obtain ⟨h1, h2, h3⟩ := ih (hcar.advance s' es₁) htl (by omega)
      rw [bodyOf_append, ← List.append_assoc]
      exact ⟨h1, h2, fun hm => h3 fun hm' => hm (List.mem_append_right _ hm')⟩

end Execute

/-! ### OnData -/

/-- `llhttp_execute` is not called on a paused parser: the branch for `HPE_PAUSED` of `OnData` is not
taken. -/
def neverPaused (deliver : Component (HttpClient L) → Component (HttpClient L)) :
    ℕ → List (List Turn) → Chain → Component (HttpClient L) → Bool
  | 0, _, _, _ => true
  | fuel + 1, scripts, data, c =>
    if data.empty then true
    else
      match data.dataAt id 0 with
      | Option.none => true
      | some (s, pos) =>
        let size := data.contiguousSize id
        let c := update (fun h => { h with script := scripts.headD [] }) c
        let r := execute deliver ((s.bytes.drop pos).take size) c
        let p := handleParseError r.2 r.1
        decide (c.own.errno ≠ .paused) &&
          (p.2 || neverPaused deliver fuel scripts.tail (data.consume id size) p.1)

section Data

variable {c : Component (HttpClient L)}

theorem OneResponse.of_nil {s t : L.State} {es : List Event} (h : OneResponse L s [] t es) :
    t = s ∧ es = [] := by
  have htrace := h.traced
  rw [Llhttp.trace_nil, Option.some.injEq, Prod.mk.injEq] at htrace
  exact ⟨htrace.1.symm, htrace.2.symm⟩

theorem dataLoop_of_empty {data : Chain} (h : data.empty = true) (fuel : ℕ) (scripts : List (List Turn)) :
    dataLoop deliver fuel scripts data c = (c, data) := by
  cases fuel with
  | zero => rfl
  | succ fuel => rw [dataLoop, if_pos h]

theorem Idle.setScript {d : List Byte} {s : L.State} (h : Idle d s c) {script : List Turn}
    (hs : TakesAll script) : Idle d s (update (fun x => { x with script := script }) c) := by
  have hl := h.listening
  exact ⟨⟨hl.noDone, hl.opened, hl.notPending, hl.notScheduled, hl.notDeferred, hl.incomplete, hl.input,
    hl.reinit, hl.status, hl.errno, hs, hl.wf⟩, h.quiet.setOwn rfl rfl rfl, h.parser⟩

/-- A call of the parser that is not paused. -/
theorem execute_of_idle (deliver : Component (HttpClient L) → Component (HttpClient L)) {d : List Byte}
    {s : L.State} (h : Idle d s c) (herr : c.own.errno ≠ .paused) (chunk : List Byte) :
    ∃ c', Idle d s c' ∧ execute deliver chunk c = runBytes deliver chunk Option.none c' := by
  have hok : c.own.errno = .ok := h.listening.errno.resolve_right herr
  have hl := h.listening
  refine ⟨update (fun x => { x with reinit := false }) c, ⟨⟨hl.noDone, hl.opened, hl.notPending,
    hl.notScheduled, hl.notDeferred, hl.incomplete, hl.input, rfl, hl.status, hl.errno, hl.script, hl.wf⟩,
    h.quiet.setOwn rfl rfl rfl, h.parser⟩, ?_⟩
  rw [execute, if_neg (by simp [hok])]

variable (hd : ∀ c : Component (HttpClient L), Listening c →
  Idle (c.own.delivered ++ Chain.bytes c.own.pendingChain) c.own.parser (deliver c))
include hd

/-- **The loop of `OnData`** over a piece of a response. -/
theorem dataLoop_conserves (law : SpanLaw L) {x : List Byte} {s t : L.State} {es : List Event}
    {data : Chain} (h : Idle x s c) (hwf : Chain.WF data) {scripts : List (List Turn)}
    (hall : ∀ script ∈ scripts, TakesAll script) (hr : OneResponse L s (Chain.bytes data) t es)
    {fuel : ℕ} (hfuel : (Chain.bytes data).length ≤ fuel)
    (hgood : neverPaused deliver fuel scripts data c = true) :
    Quiet (x ++ bodyOf es) (dataLoop deliver fuel scripts data c).1 ∧
      (.messageComplete ∉ es → Idle (x ++ bodyOf es) t (dataLoop deliver fuel scripts data c).1) := by
  induction fuel generalizing x s es data scripts c with
  | zero =>
    rw [List.eq_nil_of_length_eq_zero (Nat.le_zero.mp hfuel)] at hr
    obtain ⟨rfl, rfl⟩ := hr.of_nil
    rw [dataLoop, bodyOf_nil, List.append_nil]
    exact ⟨h.quiet, fun _ => h⟩
  | succ fuel ih =>
    cases he : data.empty with
    | true =>
      rw [(Chain.empty_iff hwf).mp he] at hr
      obtain ⟨rfl, rfl⟩ := hr.of_nil
      rw [dataLoop_of_empty he, bodyOf_nil, List.append_nil]
      exact ⟨h.quiet, fun _ => h⟩
    | false =>
      obtain ⟨seg, hat, hsize, hpos, hbytes⟩ := Chain.front hwf he
      have hscript : TakesAll (scripts.headD []) := by
        cases scripts with
        | nil => exact fun t ht => absurd ht List.not_mem_nil
        | cons script rest => exact hall script List.mem_cons_self
      have hset := h.setScript hscript
      have htake : (seg.bytes.drop data.consumedOffset).take (data.contiguousSize id) =
          seg.bytes.drop data.consumedOffset := by rw [hsize, List.take_length]
      simp only [neverPaused, he, Bool.false_eq_true, if_false, hat, htake, Bool.and_eq_true,
        decide_eq_true_eq] at hgood
      simp only [dataLoop, he, Bool.false_eq_true, if_false, hat, htake]
      rw [hbytes] at hr hfuel
      obtain ⟨hnotPaused, hgood⟩ := hgood
      obtain ⟨u, fs, hhead, hno⟩ := hr.head
      obtain ⟨gs, htail, rfl⟩ := hr.tail hhead.traced
      obtain ⟨c', hidle, hexec⟩ := execute_of_idle deliver hset hnotPaused
        (seg.bytes.drop data.consumedOffset)
      have hlen : 0 + (seg.bytes.drop data.consumedOffset).length ≤ kMaxBufferedBody := by
        have hle := seg.size_le
        rw [List.length_drop]
        simp only [kMaxBufferedBody, Segment.kSize] at hle ⊢
        omega
      obtain ⟨hok, hquiet, hnext⟩ := runBytes_conserves hd law (hidle.carries 0) hhead hlen
      rw [hexec] at hgood ⊢
      rw [hok] at hgood ⊢
      rw [if_neg (by simp)]
      simp only [handleParseError, Bool.false_eq_true, if_false, Bool.false_or] at hgood ⊢
      rw [bodyOf_append, ← List.append_assoc]
      by_cases hm : .messageComplete ∈ fs
      · have hnil : Chain.bytes (data.consume id (data.contiguousSize id)) = [] := by
          by_contra hne
          exact hno hne hm
        rw [hnil] at htail
        obtain ⟨rfl, rfl⟩ := htail.of_nil
        rw [dataLoop_of_empty ((Chain.empty_iff (Chain.wf_consumed hwf _)).mpr hnil), bodyOf_nil,
          List.append_nil]
        exact ⟨hquiet, fun hm' => absurd (List.mem_append_left _ hm) hm'⟩
      · rw [List.length_append] at hfuel
        obtain ⟨h1, h2⟩ := ih (hnext hm) (Chain.wf_consumed hwf _)
          (fun script hs => hall script (List.mem_of_mem_tail hs)) htail (by omega) hgood
        exact ⟨h1, fun hm' => h2 fun hm'' => hm' (List.mem_append_right _ hm'')⟩

end Data

/-! ### Runs -/

/-- The bytes that an input brings. -/
def Input.bytes : Input → List Byte
  | .data segments _ _ => segments.flatMap Segment.bytes
  | _ => []

/-- The client next to the bytes it has been given so far. -/
def watch (depth : ℕ) (p : List Byte × Component (HttpClient L)) (i : Input) :
    List Byte × Component (HttpClient L) := (p.1 ++ i.bytes, step depth p.2 i)

/-- What may happen while a response arrives: more of it, and the end of the connection after all of it.
The downstream takes everything. -/
def Scheduled (bytes : List Byte) (p : List Byte × Component (HttpClient L)) : Input → Prop
  | .data segments _ scripts =>
    p.1 ++ segments.flatMap Segment.bytes <+: bytes ∧ ∀ script ∈ scripts, TakesAll script
  | .done script => p.1 = bytes ∧ TakesAll script
  | .resume script => TakesAll script
  | .suspend | .close => True
  | .error _ => False

/-- A paused parser is given no bytes. -/
def Unpaused (depth : ℕ) (p : List Byte × Component (HttpClient L)) : Input → Prop
  | .data segments _ scripts =>
    let data := segments.foldl (BufferChain.append id) {}
    neverPaused (downstream depth) data.size scripts data p.2.enter = true
  | _ => True

instance (depth : ℕ) (p : List Byte × Component (HttpClient L)) : DecidablePred (Unpaused depth p)
  | .data _ _ _ => inferInstanceAs (Decidable (_ = true))
  | .done _ | .error _ | .suspend | .resume _ | .close => inferInstanceAs (Decidable True)

/-- **The invariant**: the body of the bytes received was delivered. -/
def Delivered (bytes : List Byte) (p : List Byte × Component (HttpClient L)) : Prop :=
  ∃ rest s es, bytes = p.1 ++ rest ∧ L.trace L.start p.1 = some (s, es) ∧ Quiet (bodyOf es) p.2 ∧
    (rest ≠ [] → Idle (bodyOf es) s p.2)

/-- An input that brings no bytes. -/
theorem Delivered.quiet {bytes x : List Byte} {c c' : Component (HttpClient L)}
    (h : Delivered bytes (x, c)) (hq : ∀ d, Quiet d c → Quiet d c')
    (hi : ∀ d s, x ≠ bytes → Idle d s c → Idle d s c') : Delivered bytes (x ++ [], c') := by
  obtain ⟨rest, s, es, hbytes, htrace, hquiet, hidle⟩ := h
  rw [List.append_nil]
  refine ⟨rest, s, es, hbytes, htrace, hq _ hquiet, fun hrest => hi _ _ ?_ (hidle hrest)⟩
  intro hx
  rw [hx] at hbytes
  exact hrest (List.self_eq_append_right.mp hbytes)

theorem delivered_data {depth : ℕ} (law : SpanLaw L) {bytes : List Byte} {t : L.State} {es : List Event}
    (hr : OneResponse L L.start bytes t es) {x : List Byte} {c : Component (HttpClient L)}
    (h : Delivered bytes (x, c)) {segments : List Segment} {scripts : List (List Turn)}
    (hpre : x ++ segments.flatMap Segment.bytes <+: bytes) (hall : ∀ script ∈ scripts, TakesAll script)
    (hgood : neverPaused (downstream depth) (segments.foldl (BufferChain.append id) {}).size scripts
      (segments.foldl (BufferChain.append id) {}) c.enter = true) :
    Delivered bytes (x ++ segments.flatMap Segment.bytes,
      (onData (downstream depth) scripts (segments.foldl (BufferChain.append id) {}) c).1) := by
  obtain ⟨hwf, hbytes⟩ := Chain.appendAll_spec (Chain.wf_empty Option.none) segments
  have hnone : Chain.bytes ({} : Chain) = [] := BufferChain.bytes_nil id _
  rw [hnone, List.nil_append] at hbytes
  obtain ⟨rest, s, fs, hx, htrace, hquiet, hidle⟩ := h
  obtain ⟨rest', hx'⟩ := hpre
  have hrest : rest = segments.flatMap Segment.bytes ++ rest' := by
    rw [hx, List.append_assoc] at hx'
    exact (List.append_cancel_left hx').symm
  obtain ⟨gs, htail, -⟩ := OneResponse.tail (hx ▸ hr) htrace
  rw [hrest] at htail
  obtain ⟨u, hs, hhead, hno⟩ := htail.head
  refine ⟨rest', u, fs ++ hs, hx'.symm, ?_, ?_⟩
  · rw [L.trace_append htrace, hhead.traced]
    rfl
  rw [bodyOf_append]
  generalize segments.foldl (BufferChain.append id) {} = data at hwf hbytes hgood ⊢
  rw [← hbytes] at hhead hrest
  by_cases he : data.empty = true
  · rw [(Chain.empty_iff hwf).mp he] at hhead hrest
    obtain ⟨rfl, rfl⟩ := hhead.of_nil
    rw [bodyOf_nil, List.append_nil]
    obtain rfl : rest = rest' := hrest
    rw [onData]
    split
    · exact ⟨hquiet, hidle⟩
    · have hsame : dataBody (downstream depth) scripts data c.enter = (c.enter, data) := by
        rw [dataBody, enter_own, if_pos hquiet.input, dataLoop_of_empty he]
      rw [hsame]
      exact ⟨(hquiet.congr rfl).congr (leave_own _), fun hne => (hidle hne).enter.leave⟩
  · have hne : rest ≠ [] := by
      rintro rfl
      refine he ((Chain.empty_iff hwf).mpr ?_)
      exact (List.append_eq_nil_iff.mp hrest.symm).1
    have hopen := (hidle hne).enter
    have hdata : (onData (downstream depth) scripts data c).1 =
        (dataLoop (downstream depth) data.size scripts data c.enter).1.leave := by
      rw [onData, (hidle hne).listening.opened, if_neg (by simp), dataBody, enter_own, if_pos hquiet.input]
    obtain ⟨h1, h2⟩ := dataLoop_conserves (fun c h => idle_downstream depth h) law hopen hwf hall hhead
      (Nat.le_of_eq (Chain.size_eq hwf).symm) hgood
    rw [hdata]
    refine ⟨h1.congr (leave_own _), fun hne' => (h2 ?_).leave⟩
    exact hno (by simpa using hne')

/-- **One input.** -/
theorem watch_delivered {depth : ℕ} (law : SpanLaw L) {bytes : List Byte} {t : L.State} {es : List Event}
    (hr : OneResponse L L.start bytes t es) {p : List Byte × Component (HttpClient L)}
    (h : Delivered bytes p) {i : Input} (hs : Scheduled bytes p i) (hg : Unpaused depth p i) :
    Delivered bytes (watch depth p i) := by
  obtain ⟨x, c⟩ := p
  have hscript : ∀ {d s script}, TakesAll script → Idle d s c →
      Idle d s (update (fun h => { h with script := script }) c) := fun ht h => h.setScript ht
  cases i with
  | data segments fits scripts => exact delivered_data law hr h hs.1 hs.2 hg
  | done script =>
    refine h.quiet (fun d hq => Quiet.onDone (hq.setOwn rfl rfl rfl)) fun _ _ hx => ?_
    exact absurd hs.1 hx
  | error e => exact absurd hs id
  | suspend => exact h.quiet (fun d hq => hq.congr (suspend_own c)) fun d s _ hi => hi.suspend
  | resume script =>
    refine h.quiet (fun d hq => ?_) fun d s _ hi => ?_
    · show Quiet d (if c.suspended then resume _ _ else c)
      split
      · exact Quiet.resume (hq.setOwn rfl rfl rfl)
      · exact hq
    · show Idle d s (if c.suspended then resume _ _ else c)
      split
      · exact (hi.setScript hs).resume _
      · exact hi
  | close =>
    refine h.quiet (fun d hq => ?_) fun d s _ hi => ?_
    · show Quiet d (if c.closeScheduled then doClose c else c)
      split
      · exact ⟨rfl, rfl, hq.delivered⟩
      · exact hq
    · show Idle d s (if c.closeScheduled then doClose c else c)
      rw [hi.listening.notScheduled, if_neg (by simp)]
      exact hi

theorem newClient_delivered (L : Llhttp) (bytes : List Byte) : Delivered bytes ([], newClient L) := by
  refine ⟨bytes, L.start, [], rfl, rfl, ⟨rfl, rfl, rfl⟩, fun _ => ⟨?_, ⟨rfl, rfl, rfl⟩, rfl⟩⟩
  exact ⟨List.not_mem_nil, rfl, rfl, rfl, rfl, rfl, rfl, rfl, (by decide : 0 < 300), Or.inl rfl,
    fun t ht => absurd ht List.not_mem_nil, Chain.wf_empty _⟩

/-- **The body is conserved** in every run in which a paused parser is given no bytes: at every moment the
downstream has got the body of the bytes received, and it is told of the end only after all of them. -/
theorem body_conserved (L : Llhttp) (law : SpanLaw L) (depth : ℕ) {bytes : List Byte} {t : L.State}
    {es : List Event} (hr : OneResponse L L.start bytes t es) (inputs : List Input)
    (hsched : Runs.Along (Scheduled bytes) (watch depth) ([], newClient L) inputs)
    (hgood : Runs.Along (Unpaused depth) (watch depth) ([], newClient L) inputs) :
    let p := Runs.run (watch depth) ([], newClient L) inputs
    (∃ s fs, L.trace L.start p.1 = some (s, fs) ∧ p.2.own.delivered = bodyOf fs) ∧
      (p.1 = bytes → p.2.own.delivered = bodyOf es) ∧
      (.done ∈ p.2.signals → p.1 = bytes ∧ p.2.own.delivered = bodyOf es) := by
  intro p
  have hstep : ∀ (p : List Byte × Component (HttpClient L)) i, Delivered bytes p →
      Scheduled bytes p i ∧ Unpaused depth p i → Delivered bytes (watch depth p i) :=
    fun p i h hi => watch_delivered law hr h hi.1 hi.2
  obtain ⟨rest, s, fs, hbytes, htrace, hquiet, hidle⟩ :=
    Runs.run_preserves hstep (newClient_delivered L bytes) (hsched.and hgood)
  have hall : p.1 = bytes → p.2.own.delivered = bodyOf es := by
    intro hp
    have heq := (hp ▸ htrace).symm.trans hr.traced
    rw [Option.some.injEq, Prod.mk.injEq] at heq
    exact heq.2 ▸ hquiet.delivered
  refine ⟨⟨s, fs, htrace, hquiet.delivered⟩, hall, fun hdone => ?_⟩
  have hnil : rest = [] := by
    by_contra hne
    exact (hidle hne).listening.noDone hdone
  have hp : p.1 = bytes := by
    rw [hbytes, hnil, List.append_nil]
  exact ⟨hp, hall hp⟩

/-! ### A response in two segments -/

theorem spanLaw_canned {code : ℕ} {rows : List (Byte × List Event)}
    (h : ∀ row ∈ rows, (bodyOf row.2).length ≤ 1) : SpanLaw (canned code rows) := by
  intro s b s' es hn
  obtain ⟨-, b', hrow⟩ := cannedNext_ok hn
  exact h _ (List.mem_of_getElem? hrow)

/-- The status that an event reports. -/
def Event.status : Event → ℕ
  | .span (.status k) _ => k
  | _ => 0

theorem oneResponse_canned {code : ℕ} {rows : List (Byte × List Event)} {s : ℕ} {es : List Event}
    (ht : (canned code rows).trace (0 : ℕ) (rows.map Prod.fst) = some (s, es))
    (hs : ∀ e ∈ es, e.status < 300) (hl : .messageComplete ∉ es.dropLast)
    (hf : ∀ row ∈ rows.dropLast, .messageComplete ∉ row.2) :
    OneResponse (canned code rows) (0 : ℕ) (rows.map Prod.fst) s es := by
  refine ⟨ht, fun k piece hk => hs _ hk, hl, ?_⟩
  rintro x y hxy hy ⟨u, fs, hx, hm⟩
  obtain ⟨-, -, rfl⟩ := canned_trace (i := 0) (s := u) hx (Nat.zero_le _)
  have hlen := congrArg List.length hxy
  rw [List.length_map, List.length_append] at hlen
  have hpos := List.length_pos_iff.mpr hy
  obtain ⟨row, hrow, hmem⟩ := List.mem_flatMap.mp hm
  refine hf row ?_ hmem
  rw [List.drop_zero] at hrow
  rw [List.dropLast_eq_take]
  exact (List.take_subset_take_left _ (by omega)) hrow

/-- The response up to its last byte. -/
def okFront : Segment := Segment.ofBytes (okResponse.dropLast.map Prod.fst)

/-- Its last byte. -/
def okLast : Segment := Segment.ofBytes [105]

theorem okResponse_one : OneResponse (canned 200 okResponse) (0 : ℕ) (okResponse.map Prod.fst)
    okResponse.length (okResponse.flatMap Prod.snd) := by
  refine oneResponse_canned ?_ (by decide +kernel) (by decide +kernel) (by decide +kernel)
  rfl

/-- The last byte arrives after the `Resume`, and then the end. -/
def okSchedule : List Input :=
  [.data [okFront] (by decide +kernel) [[{ asks := [.suspend] }]], .resume [],
    .data [okLast] (by decide +kernel) [], .done []]

theorem body_conserved_resumed :
    let p := Runs.run (watch 0) ([], newClient (canned 200 okResponse)) okSchedule
    (∃ s fs, (canned 200 okResponse).trace (canned 200 okResponse).start p.1 = some (s, fs) ∧
        p.2.own.delivered = bodyOf fs) ∧
      (p.1 = okResponse.map Prod.fst → p.2.own.delivered = bodyOf (okResponse.flatMap Prod.snd)) ∧
      (.done ∈ p.2.signals → p.1 = okResponse.map Prod.fst ∧
        p.2.own.delivered = bodyOf (okResponse.flatMap Prod.snd)) := by
  refine body_conserved (canned 200 okResponse) (spanLaw_canned (by decide +kernel)) 0 okResponse_one
    okSchedule ⟨⟨by decide +kernel, ?_⟩, ?_, ⟨by decide +kernel, ?_⟩, ⟨by decide +kernel, ?_⟩, trivial⟩
    ⟨by decide +kernel, trivial, by decide +kernel, trivial, trivial⟩
  · intro script hs t ht
    rw [List.mem_singleton.mp hs] at ht
    rw [List.mem_singleton.mp ht]
  · exact fun t ht => absurd ht List.not_mem_nil
  · exact fun script hs => absurd hs List.not_mem_nil
  · exact fun t ht => absurd ht List.not_mem_nil

/-- The same two segments in one call: what comes behind the suspension is lost. -/
def okLost : List Input := [.data [okFront, okLast] (by decide +kernel) [[{ asks := [.suspend] }]], .resume []]

theorem not_body_conserved :
    ¬∀ L : Llhttp, SpanLaw L → ∀ (depth : ℕ) (bytes : List Byte) (t : L.State) (es : List Event),
      OneResponse L L.start bytes t es → ∀ inputs : List Input,
        Runs.Along (Scheduled bytes) (watch depth) ([], newClient L) inputs →
          let p := Runs.run (watch depth) ([], newClient L) inputs
          p.1 = bytes → p.2.suspended = false → p.2.own.delivered = bodyOf es := by
  intro h
  have hlost := h (canned 200 okResponse) (spanLaw_canned (by decide +kernel)) 0 _ _ _ okResponse_one okLost
    ⟨⟨by decide +kernel, ?_⟩, fun t ht => absurd ht List.not_mem_nil, trivial⟩ (by decide +kernel)
    (by decide +kernel)
  · exact absurd hlost (by decide +kernel)
  · intro script hs t ht
    rw [List.mem_singleton.mp hs] at ht
    rw [List.mem_singleton.mp ht]

end DbnPipe.Http
