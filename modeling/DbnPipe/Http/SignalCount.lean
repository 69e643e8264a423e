import DbnPipe.Http.EndOfStream

/-!
# Counting terminal signals

How many terminal signals `HttpClient` has given, next to how many responses it has received completely.

* `owed` — a complete response that is not reported yet is **owed one signal**;
* `Counted` — the signals given and owed are at most as many as the complete responses;
* `Alike` — what the counters of the base class leave alone, these numbers among them;
* `Manner` — how the downstream takes its data: it calls no `Resume` in the flush at the end of a message, or it takes
  everything;
* `Flowing` — the invariant while the parser runs; `Finished` — what is left of it where a response is
  broken off;
* `left_execute` — **`llhttp_execute`** keeps the one, or ends in the other.
-/

namespace DbnPipe.Http

open Component

variable {L : Llhttp}

/-! ### The count -/

/-- What an open client owes: the signal of a complete response that is not reported. -/
def owed (c : Component (HttpClient L)) : ℕ := if c.own.messageComplete && !c.closed then 1 else 0

theorem owed_open {c : Component (HttpClient L)} (hm : c.own.messageComplete = true)
    (hc : c.closed = false) : owed c = 1 := by
  rw [owed, hm, hc]
  rfl

theorem owed_closed {c : Component (HttpClient L)} (hc : c.closed = true) : owed c = 0 := by
  rw [owed, hc, Bool.not_true, Bool.and_false]
  rfl

theorem owed_none {c : Component (HttpClient L)} (hm : c.own.messageComplete = false) : owed c = 0 := by
  rw [owed, hm]
  rfl

/-- What holds of the count at any time. -/
structure Counted (c : Component (HttpClient L)) : Prop where
  count : c.signals.length + owed c ≤ c.own.responses.length
  finalized : c.finalized = c.closed
  input : c.own.pendingInput.empty = true
  wf : Chain.WF c.own.pendingChain
  deferred : c.donePending = true → c.own.messageComplete = true

/-- The client is closed, and its count holds unless a response was broken off. -/
def Finished (c : Component (HttpClient L)) : Prop :=
  c.closed = true ∧ (Counted c ∨ c.own.messageComplete = false)

/-- A change to the fields that the count is not about. -/
theorem Counted.congr {c c' : Component (HttpClient L)} (h : Counted c) (hsignals : c'.signals = c.signals)
    (hclosed : c'.closed = c.closed) (hfinalized : c'.finalized = c.finalized)
    (hdone : c'.donePending = c.donePending) (hcomplete : c'.own.messageComplete = c.own.messageComplete)
    (hresponses : c'.own.responses = c.own.responses) (hinput : c'.own.pendingInput = c.own.pendingInput)
    (hwf : Chain.WF c'.own.pendingChain) : Counted c' := by
  have howed : owed c' = owed c := by rw [owed, owed, hcomplete, hclosed]
  refine ⟨?_, ?_, ?_, hwf, ?_⟩
  · rw [hsignals, howed, hresponses]
    exact h.count
  · rw [hfinalized, hclosed]
    exact h.finalized
  · rw [hinput]
    exact h.input
  · rw [hdone, hcomplete]
    exact h.deferred

/-- What the counters of the base class leave alone. -/
structure Alike (c c' : Component (HttpClient L)) : Prop where
  signals : c'.signals = c.signals
  closed : c'.closed = c.closed
  finalized : c'.finalized = c.finalized
  donePending : c'.donePending = c.donePending
  own : c'.own = c.own

section Counters

variable (c : Component (HttpClient L))

theorem alike_count (n : ℕ) : Alike c { c with suspendCount := n } := ⟨rfl, rfl, rfl, rfl, rfl⟩

theorem alike_enter : Alike c c.enter := ⟨rfl, rfl, rfl, rfl, rfl⟩

theorem alike_leave : Alike c c.leave :=
  ⟨c.leave_signals, c.leave_closed, c.leave_finalized, c.leave_donePending, c.leave_own⟩

theorem alike_suspend : Alike c c.suspend := by
  rw [Component.suspend]
  split <;> exact ⟨rfl, rfl, rfl, rfl, rfl⟩

theorem alike_resumeUpstream : Alike c c.resumeUpstream := by
  rw [Component.resumeUpstream]
  split <;> exact ⟨rfl, rfl, rfl, rfl, rfl⟩

end Counters

theorem Counted.alike {c c' : Component (HttpClient L)} (h : Counted c) (ha : Alike c c') : Counted c' := by
  have hown := ha.own
  refine h.congr ha.signals ha.closed ha.finalized ha.donePending ?_ ?_ ?_ ?_ <;> rw [hown]
  exact h.wf

/-- Giving the signal that is owed, and closing. -/
theorem Counted.ended {c d : Component (HttpClient L)} (h : Counted c) (hc : c.closed = false)
    (hm : c.own.messageComplete = true) {s : Signal} (he : Ended c d s) : Counted d := by
  have hcount := h.count
  rw [owed_open hm hc] at hcount
  refine ⟨?_, he.finalized.trans he.closed.symm, ?_, ?_, ?_⟩
  · rw [owed_closed he.closed, he.signals, he.own, List.length_append, List.length_singleton]
    exact hcount
  · rw [he.own]
    exact h.input
  · rw [he.own]
    exact h.wf
  · rw [he.own]
    exact fun _ => hm

/-- An error about a complete response. -/
theorem Counted.fail {c : Component (HttpClient L)} (h : Counted c) (hm : c.own.messageComplete = true)
    (e : Error) : Counted (c.emitError e).requestClose := by
  cases hc : c.closed with
  | true =>
    rw [error_of_closed hc (h.finalized.trans hc) e]
    exact h
  | false => exact h.ended hc hm (ended_error hc (h.finalized.trans hc) e)

/-- The end of a complete response, and of the connection. -/
theorem Counted.finish {c : Component (HttpClient L)} (h : Counted c) (hm : c.own.messageComplete = true) :
    Counted c.emitDone.requestClose := by
  cases hc : c.closed with
  | true =>
    rw [done_of_closed hc (h.finalized.trans hc)]
    exact h
  | false => exact h.ended hc hm (ended_done hc (h.finalized.trans hc))

/-- **An error while the parser runs**: it is about a complete response, or breaks one off. -/
theorem finished_fail {c : Component (HttpClient L)} (h : Counted c) (e : Error) :
    Finished (c.emitError e).requestClose := by
  have hfail := c.failed e
  refine ⟨hfail.closed, ?_⟩
  cases hm : c.own.messageComplete with
  | true => exact Or.inl (h.fail hm e)
  | false =>
    rw [hfail.own]
    exact Or.inr hm

/-- A callback's refusal, or a parse error, touches `errno` only. -/
theorem Finished.stop {c : Component (HttpClient L)} (h : Finished c) (err : Errno) :
    Finished (stop err c).1 := by
  refine ⟨h.1, h.2.imp_left fun hcounted => ?_⟩
  exact hcounted.congr rfl rfl rfl rfl rfl rfl rfl hcounted.wf

/-! ### The downstream's manner -/

/-- How the downstream takes its data: it calls no `Resume` in the flush at the end of a message, or it takes all it is
given. -/
inductive Manner where
  | calm
  | greedy
deriving DecidableEq, Repr

/-- What a turn may do. -/
def Manner.Allows : Manner → Turn → Prop
  | .calm, t => .resume ∉ t.asksAtEnd
  | .greedy, t => t.consume = none

/-- The turns of an input are of one manner; who takes everything has left nothing. -/
def Steady (m : Manner) (turns : List Turn) (c : Component (HttpClient L)) : Prop :=
  (∀ t ∈ turns, m.Allows t) ∧ (m = .greedy → c.own.pendingChain.empty = true)

/-- The turns to come are. -/
def Behaves (m : Manner) (c : Component (HttpClient L)) : Prop := Steady m c.own.script c

/-- Whoever has left bytes is calm. -/
theorem Behaves.calm {m : Manner} {c : Component (HttpClient L)} (h : Behaves m c)
    (he : c.own.pendingChain.empty = false) : m = .calm := by
  cases m with
  | calm => rfl
  | greedy => exact absurd (he.symm.trans (h.2 rfl)) Bool.false_ne_true

/-- What a turn without a `Resume` does: **the flush at the end of a message**. -/
def Turned (c c' : Component (HttpClient L)) : Prop :=
  ∃ n upstream script delivered chain,
    c' = { c with
      suspendCount := c.suspendCount + n
      upstreamSuspends := upstream
      own := { c.own with script := script, delivered := delivered, pendingChain := chain } } ∧
    script ⊆ c.own.script ∧ (Chain.WF c.own.pendingChain → Chain.WF chain)

/-- Inside a run of the parser. -/
structure Flowing (m : Manner) (c : Component (HttpClient L)) : Prop where
  counted : Counted c
  opened : c.closed = false
  going : c.donePending = false
  errno : c.own.errno = .ok ∨ c.own.errno = .paused
  behaves : Behaves m c

theorem Flowing.alike {m : Manner} {c c' : Component (HttpClient L)} (h : Flowing m c) (ha : Alike c c') :
    Flowing m c' := by
  have hown := ha.own
  refine ⟨h.counted.alike ha, ha.closed.trans h.opened, ha.donePending.trans h.going, ?_, ?_⟩
  · rw [hown]
    exact h.errno
  · rw [Behaves, Steady, hown]
    exact h.behaves

theorem Turned.refl (c : Component (HttpClient L)) : Turned c c :=
  ⟨0, c.upstreamSuspends, c.own.script, c.own.delivered, c.own.pendingChain, rfl, fun _ h => h, id⟩

theorem Turned.counted {c c' : Component (HttpClient L)} (h : Turned c c') (hc : Counted c) : Counted c' := by
  obtain ⟨_, _, _, _, _, rfl, _, hwf⟩ := h
  exact hc.congr rfl rfl rfl rfl rfl rfl rfl (hwf hc.wf)

theorem Turned.behaves {c c' : Component (HttpClient L)} (h : Turned c c') (hb : Behaves .calm c) :
    Behaves .calm c' := by
  obtain ⟨_, _, _, _, _, rfl, hsub, _⟩ := h
  exact ⟨fun t ht => hb.1 t (hsub ht), Manner.noConfusion⟩

theorem Turned.flowing {c c' : Component (HttpClient L)} (h : Turned c c') (hr : Flowing .calm c) :
    Flowing .calm c' := by
  have hcounted := h.counted hr.counted
  have hbehaves := h.behaves hr.behaves
  obtain ⟨_, _, _, _, _, rfl, _⟩ := h
  exact ⟨hcounted, hr.opened, hr.going, hr.errno, hbehaves⟩

/-- Where whoever is calm may call `Resume`, too. -/
def Midway (m : Manner) (c : Component (HttpClient L)) : Prop := m = .calm → c.own.messageComplete = false

/-- What a downstream's `OnData` does, by its manner: in the flush at the end of a message, and elsewhere. -/
structure Delivers (deliver : Component (HttpClient L) → Component (HttpClient L)) : Prop where
  calm : ∀ c, c.own.messageComplete = true → (∀ t ∈ c.own.script, Manner.calm.Allows t) → Turned c (deliver c)
  midway : ∀ m c, Counted c → c.closed = false → c.donePending = false →
    c.own.errno = .ok ∨ c.own.errno = .paused →
    (∀ t ∈ c.own.script, m.Allows t) → Midway m c → Flowing m (deliver c) ∧ Midway m (deliver c)

/-- The downstream may have left bytes before: it is given them all now. -/
theorem Delivers.flowing {deliver : Component (HttpClient L) → Component (HttpClient L)} (hd : Delivers deliver)
    {m : Manner} {c : Component (HttpClient L)} (hc : Counted c) (hopen : c.closed = false)
    (hgoing : c.donePending = false) (herrno : c.own.errno = .ok ∨ c.own.errno = .paused)
    (hscript : ∀ t ∈ c.own.script, m.Allows t) : Flowing m (deliver c) := by
  by_cases hmidway : Midway m c
  · exact (hd.midway m c hc hopen hgoing herrno hscript hmidway).1
  · obtain ⟨rfl, hm⟩ := Classical.not_imp.mp hmidway
    have hturn := hd.calm c (eq_true_of_ne_false hm) hscript
    exact hturn.flowing ⟨hc, hopen, hgoing, herrno, hscript, Manner.noConfusion⟩

/-! ### Steps of the parser -/

/-- A callback goes on in the invariant, or refuses. -/
def Goes (m : Manner) (r : Component (HttpClient L) × Bool) : Prop :=
  (r.2 = true → Flowing m r.1) ∧ (r.2 = false → Finished r.1)

theorem Goes.on {m : Manner} {c : Component (HttpClient L)} (h : Flowing m c) : Goes m (c, true) :=
  ⟨fun _ => h, fun hr => absurd hr Bool.true_eq_false.mp⟩

theorem Goes.off {m : Manner} {c : Component (HttpClient L)} (h : Finished c) : Goes m (c, false) :=
  ⟨fun hr => absurd hr Bool.false_ne_true, fun _ => h⟩

/-- A change to the header fields, the status and the record of what has begun. -/
theorem Flowing.update {m : Manner} {c : Component (HttpClient L)} (h : Flowing m c)
    {f : HttpClient L → HttpClient L} (hcomplete : (f c.own).messageComplete = c.own.messageComplete)
    (hresponses : (f c.own).responses = c.own.responses) (hinput : (f c.own).pendingInput = c.own.pendingInput)
    (hchain : (f c.own).pendingChain = c.own.pendingChain) (herrno : (f c.own).errno = c.own.errno)
    (hscript : (f c.own).script = c.own.script) : Flowing m (update f c) := by
  refine ⟨h.counted.congr rfl rfl rfl rfl hcomplete hresponses hinput ?_, h.opened, h.going, ?_, ?_, ?_⟩
  · show Chain.WF (f c.own).pendingChain
    rw [hchain]
    exact h.counted.wf
  · show (f c.own).errno = .ok ∨ (f c.own).errno = .paused
    rw [herrno]
    exact h.errno
  · show ∀ t ∈ (f c.own).script, m.Allows t
    rw [hscript]
    exact h.behaves.1
  · show m = .greedy → (f c.own).pendingChain.empty = true
    rw [hchain]
    exact h.behaves.2

theorem Flowing.pause {m : Manner} {c : Component (HttpClient L)} (h : Flowing m c) : Flowing m (pause c) := by
  rw [Http.pause, Http.update]
  split
  · exact ⟨h.counted.congr rfl rfl rfl rfl rfl rfl rfl h.counted.wf, h.opened, h.going, Or.inr rfl, h.behaves⟩
  · exact h

theorem Flowing.unpause {m : Manner} {c : Component (HttpClient L)} (h : Flowing m c) :
    Flowing m (unpause c) := by
  rw [Http.unpause, Http.update]
  split
  · exact ⟨h.counted.congr rfl rfl rfl rfl rfl rfl rfl h.counted.wf, h.opened, h.going, Or.inl rfl, h.behaves⟩
  · exact h

/-- **Reporting a response** clears the flag, and the debt. -/
theorem Flowing.reset {m : Manner} {c : Component (HttpClient L)} (h : Flowing m c)
    (hm : c.own.messageComplete = true) : Flowing m (resetMessageState c.emitDone) := by
  have hf := h.counted.finalized.trans h.opened
  have hsignals : c.emitDone.signals = c.signals ++ [.done] := by simp [emitDone, hf, signal]
  have hclosed : c.emitDone.closed = false := by simp [emitDone, hf, signal, h.opened]
  have hpending : c.emitDone.donePending = false := by simp [emitDone, hf, signal, h.going]
  have hown := emitDone_own c
  have hcount := h.counted.count
  rw [owed_open hm h.opened] at hcount
  have hopened : (resetMessageState c.emitDone).closed = false := hclosed
  have hgoing : (resetMessageState c.emitDone).donePending = false := hpending
  refine ⟨⟨?_, hopened.symm, ?_, Chain.wf_cleared _, ?_⟩, hopened, hgoing, Or.inl rfl, ?_, fun _ => rfl⟩
  · rw [owed_none rfl]
    show c.emitDone.signals.length + 0 ≤ c.emitDone.own.responses.length
    rw [hsignals, hown, List.length_append, List.length_singleton]
    exact hcount
  · show c.emitDone.own.pendingInput.empty = true
    rw [hown]
    exact h.counted.input
  · exact fun hd => absurd (hgoing.symm.trans hd) Bool.false_ne_true
  · show ∀ t ∈ c.emitDone.own.script, m.Allows t
    rw [hown]
    exact h.behaves.1

/-- `on_message_complete` adds a response, and a debt. -/
theorem Flowing.record {m : Manner} {c : Component (HttpClient L)} (h : Flowing m c) :
    Flowing m (recordMessage c) := by
  refine ⟨⟨?_, h.counted.finalized, h.counted.input, h.counted.wf, fun _ => rfl⟩, h.opened, h.going, h.errno,
    h.behaves⟩
  have hcount := h.counted.count
  have howed : owed (recordMessage c) = 1 := owed_open rfl h.opened
  rw [howed]
  show c.signals.length + 1 ≤ (c.own.responses ++ [_]).length
  rw [List.length_append, List.length_singleton]
  omega

theorem flowing_completeMessage {m : Manner} {c : Component (HttpClient L)} (h : Flowing m c)
    (hm : c.own.messageComplete = true) : Flowing m (completeMessage c) := by
  rw [completeMessage]
  split
  · exact h.pause
  · exact h.reset hm

section Steps

variable {deliver : Component (HttpClient L) → Component (HttpClient L)} (hd : Delivers deliver) {m : Manner}
  {c : Component (HttpClient L)}
include hd

/-- The end of a response with a success status. -/
theorem goes_succeed (h : Flowing m c) (hm : c.own.messageComplete = true) : Goes m (succeed deliver c) := by
  cases he : c.own.pendingChain.empty with
  | true =>
    rw [succeed, he, if_pos rfl]
    exact .on (flowing_completeMessage h hm)
  | false =>
    obtain rfl := h.behaves.calm he
    have hturn := hd.calm c hm h.behaves.1
    have hflow := hturn.flowing h
    have hcomplete : (deliver c).own.messageComplete = true := by
      obtain ⟨_, _, _, _, _, heq, _⟩ := hturn
      rw [heq]
      exact hm
    simp only [succeed, he, Bool.false_eq_true, if_false]
    split
    · exact .on hflow.pause
    · split
      · exact .off (finished_fail hflow.counted _)
      · exact .on (flowing_completeMessage hflow hcomplete)

/-- **`OnMessageComplete`.** -/
theorem goes_onMessageComplete (h : Flowing m c) : Goes m (onMessageComplete deliver c) := by
  rw [onMessageComplete]
  split
  · exact .off (finished_fail h.record.counted _)
  · exact goes_succeed hd h.record rfl

theorem goes_onBody (h : Flowing m c) (bytes : List Byte) : Goes m (onBody deliver bytes c) := by
  rw [onBody]
  split
  · exact .on (h.update rfl rfl rfl rfl rfl rfl)
  rw [appendBodyToPending]
  split
  · exact .off (finished_fail h.counted _)
  · have happend := (Chain.appendBytes_spec h.counted.wf bytes).1
    have hcounted : Counted (update (fun h => { h with
        pendingChain := Chain.appendBytes h.pendingChain bytes }) c) :=
      h.counted.congr rfl rfl rfl rfl rfl rfl rfl happend
    have hflow := hd.flowing hcounted h.opened h.going h.errno h.behaves.1
    refine .on ?_
    split
    · exact hflow.pause
    · exact hflow

theorem goes_callSpan (h : Flowing m c) (kind : SpanKind) (bytes : List Byte) :
    Goes m (callSpan deliver kind bytes c) := by
  cases kind with
  | status code => exact .on (h.update rfl rfl rfl rfl rfl rfl)
  | headerField =>
    refine .on (h.update ?_ ?_ ?_ ?_ ?_ ?_)
    all_goals
      dsimp only
      split <;> rfl
  | headerValue => exact .on (h.update rfl rfl rfl rfl rfl rfl)
  | body => exact goes_onBody hd h bytes

theorem goes_flush (h : Flowing m c) (span : Span) : Goes m (flush deliver span c) := by
  cases span with
  | none => exact .on h
  | some p => exact goes_callSpan hd h p.1 p.2

theorem goes_notify (h : Flowing m c) (e : Event) : Goes m (notify deliver e c) := by
  cases e with
  | span kind bytes => exact .on h
  | messageBegin => exact .on (h.update rfl rfl rfl rfl rfl rfl)
  | headersComplete =>
    refine .on (h.update ?_ ?_ ?_ ?_ ?_ ?_)
    all_goals
      dsimp only
      split <;> split <;> rfl
  | messageComplete => exact goes_onMessageComplete hd h

/-- **One event.** -/
theorem goes_callEvent (h : Flowing m c) (e : Event) (span : Span) :
    Goes m ((callEvent deliver e span c).1, (callEvent deliver e span c).2.2) := by
  have hflush := goes_flush hd h span
  cases e with
  | span kind bytes =>
    cases span with
    | none => exact .on h
    | some p =>
      simp only [callEvent]
      split
      · exact .on h
      · exact hflush
  | messageBegin | headersComplete | messageComplete =>
    simp only [callEvent]
    split
    · exact goes_notify hd (hflush.1 ‹_›) _
    · exact .off (hflush.2 (eq_false_of_ne_true ‹_›))

theorem goes_callEvents (h : Flowing m c) (es : List Event) (span : Span) :
    Goes m ((callEvents deliver es span c).1, (callEvents deliver es span c).2.2) := by
  induction es generalizing c span with
  | nil => exact .on h
  | cons e es ih =>
    have hone := goes_callEvent hd h e span
    simp only [callEvents]
    split
    · exact ih (hone.1 ‹_›) _
    · exact hone

theorem goes_callByte (h : Flowing m c) (es : List Event) (span : Span) :
    Goes m ((callByte deliver es span c).1, (callByte deliver es span c).2.2) := by
  rw [callByte]
  split
  · exact goes_flush hd h span
  · exact goes_callEvents hd h es span

/-- How a call of the parser ends. -/
def Left (m : Manner) (r : Component (HttpClient L) × Errno) : Prop :=
  match r.2 with
  | .ok | .paused => Flowing m r.1
  | .user => Finished r.1
  | .other name => ∃ c, Flowing m c ∧ r = stop (.other name) c

theorem left_runBytes (h : Flowing m c) (bytes : List Byte) (span : Span) :
    Left m (runBytes deliver bytes span c) := by
  induction bytes generalizing c span with
  | nil =>
    have hflush := goes_flush hd h span
    simp only [runBytes]
    split
    · exact hflush.1 ‹_›
    · exact (hflush.2 (eq_false_of_ne_true ‹_›)).stop _
  | cons b bytes ih =>
    cases hn : L.next c.own.parser b with
    | error name =>
      simp only [runBytes, hn]
      exact ⟨c, h, rfl⟩
    | ok p =>
      have hbyte := goes_callByte hd h p.2 span
      simp only [runBytes, hn]
      split
      · refine ih (c := advance p.1 p.2 _) ?_ _
        exact (hbyte.1 ‹_›).update rfl rfl rfl rfl rfl rfl
      · exact (hbyte.2 (eq_false_of_ne_true ‹_›)).stop _

/-- **`llhttp_execute`.** -/
theorem left_execute (h : Flowing m c) (chunk : List Byte) : Left m (execute deliver chunk c) := by
  rw [execute]
  split
  · rename_i herr
    have hpaused : c.own.errno = .paused := h.errno.resolve_left herr
    rw [hpaused]
    exact h
  · apply left_runBytes hd
    exact h.update rfl rfl rfl rfl rfl rfl

omit hd in
/-- What the caller of the parser does about an error. -/
theorem Left.handle {r : Component (HttpClient L) × Errno} (h : Left m r) (hne : r.2 ≠ .paused) :
    let p := handleParseError r.2 r.1
    (p.2 = false → Flowing m p.1) ∧ (p.2 = true → Finished p.1) := by
  obtain ⟨c, err⟩ := r
  cases err with
  | ok => exact ⟨fun _ => h, fun hr => absurd hr Bool.false_ne_true⟩
  | paused => exact absurd rfl hne
  | user => exact ⟨fun hr => absurd hr Bool.true_eq_false.mp, fun _ => h⟩
  | other name =>
    refine ⟨fun hr => absurd hr Bool.true_eq_false.mp, fun _ => ?_⟩
    obtain ⟨d, hflow, heq⟩ := h
    obtain rfl : c = (stop (.other name) d).1 := congrArg Prod.fst heq
    have hcounted : Counted (stop (.other name) d).1 :=
      hflow.counted.congr rfl rfl rfl rfl rfl rfl rfl hflow.counted.wf
    exact finished_fail hcounted _

end Steps

end DbnPipe.Http
