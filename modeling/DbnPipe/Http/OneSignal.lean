import DbnPipe.Http.SignalCount

/-!
# One terminal signal for each response

`OnMessageComplete` reports a response and clears the flag that makes a terminal signal one-shot, so the
end of the connection finds nothing that would stop it from reporting again.

* `Sound` — the invariant between two inputs, kept by `OnData`, `Resume`, and an end that comes in time;
* `midway_processPending`, `turned_processPending` — the same inside a message, and where one is complete;
* `delivers_downstream` — what the downstream's `OnData` may do, by its manner;
* `signals_at_rest` — between two responses **every end is reported**;
* `one_signal_each` — runs whose end comes while a response is owed, or to a closed client, give **no
  more signals than there are responses**.
-/

namespace DbnPipe.Http

open Component

variable {L : Llhttp}

/-! ### Between two inputs -/

/-- Between two inputs: an open client's parser has met no error. -/
structure Sound (c : Component (HttpClient L)) : Prop where
  counted : Counted c
  errno : c.closed = false → c.own.errno = .ok ∨ c.own.errno = .paused

theorem Counted.sound {c : Component (HttpClient L)} (h : Counted c) (hc : c.closed = true) : Sound c :=
  ⟨h, fun ho => absurd (hc.symm.trans ho) Bool.true_eq_false.mp⟩

theorem Flowing.sound {m : Manner} {c : Component (HttpClient L)} (h : Flowing m c) : Sound c :=
  ⟨h.counted, fun _ => h.errno⟩

/-- Nothing was broken off if the client closed over a complete response. -/
theorem Finished.sound {c : Component (HttpClient L)} (h : Finished c) (hm : c.own.messageComplete = true) :
    Sound c :=
  Counted.sound (h.2.resolve_right fun hn => absurd (hm.symm.trans hn) Bool.true_eq_false.mp) h.1

theorem Sound.alike {c c' : Component (HttpClient L)} (h : Sound c) (ha : Alike c c') : Sound c' := by
  refine ⟨h.counted.alike ha, fun hopen => ?_⟩
  rw [ha.own]
  exact h.errno (ha.closed.symm.trans hopen)

theorem Sound.enter {c : Component (HttpClient L)} (h : Sound c) : Sound c.enter := h.alike (alike_enter c)

theorem Sound.leave {c : Component (HttpClient L)} (h : Sound c) : Sound c.leave := h.alike (alike_leave c)

theorem Sound.unpause {c : Component (HttpClient L)} (h : Sound c) : Sound (unpause c) := by
  rw [Http.unpause, Http.update]
  split
  · exact ⟨h.counted.congr rfl rfl rfl rfl rfl rfl rfl h.counted.wf, fun _ => Or.inl rfl⟩
  · exact h

theorem Sound.deferOnDone {c : Component (HttpClient L)} (h : Sound c) (hm : c.own.messageComplete = true) :
    Sound c.deferOnDone :=
  ⟨⟨h.counted.count, h.counted.finalized, h.counted.input, h.counted.wf, fun _ => hm⟩, h.errno⟩

theorem Sound.clearDone {c : Component (HttpClient L)} (h : Sound c) : Sound c.clearDone :=
  ⟨⟨h.counted.count, h.counted.finalized, h.counted.input, h.counted.wf,
    fun hd => absurd hd Bool.false_ne_true⟩, h.errno⟩

theorem Turned.sound {c c' : Component (HttpClient L)} (h : Turned c c') (hc : Sound c) : Sound c' := by
  have hcounted := h.counted hc.counted
  obtain ⟨_, _, _, _, _, rfl, _⟩ := h
  exact ⟨hcounted, hc.errno⟩

theorem Turned.messageComplete {c c' : Component (HttpClient L)} (h : Turned c c') :
    c'.own.messageComplete = c.own.messageComplete := by
  obtain ⟨_, _, _, _, _, rfl, _⟩ := h
  rfl

theorem Turned.closed {c c' : Component (HttpClient L)} (h : Turned c c') : c'.closed = c.closed := by
  obtain ⟨_, _, _, _, _, rfl, _⟩ := h
  rfl

theorem Turned.donePending {c c' : Component (HttpClient L)} (h : Turned c c') :
    c'.donePending = c.donePending := by
  obtain ⟨_, _, _, _, _, rfl, _⟩ := h
  rfl

/-- The turns of an input are set. -/
theorem Sound.scripted {c : Component (HttpClient L)} (h : Sound c) (turns : List Turn) :
    Sound (update (fun h => { h with script := turns }) c) :=
  ⟨h.counted.congr rfl rfl rfl rfl rfl rfl rfl h.counted.wf, h.errno⟩

section Inputs

variable {deliver : Component (HttpClient L) → Component (HttpClient L)} (hd : Delivers deliver) {m : Manner}
  {c : Component (HttpClient L)}
include hd

theorem sound_dataLoop (h : Sound c) (hopen : c.closed = false) (hgoing : c.donePending = false) (fuel : ℕ)
    {scripts : List (List Turn)} (hs : Steady m scripts.flatten c) {data : Chain} (hwf : Chain.WF data)
    (hlen : (Chain.bytes data).length ≤ 2 ^ 63) :
    Sound (dataLoop deliver fuel scripts data c).1 ∨ Finished (dataLoop deliver fuel scripts data c).1 := by
  induction fuel generalizing c scripts data with
  | zero => exact Or.inl h
  | succ fuel ih =>
    cases he : data.empty with
    | true =>
      simp only [dataLoop, he, if_true]
      exact Or.inl h
    | false =>
      obtain ⟨s, hat, hsize, hpos, -⟩ := Chain.front hwf he
      simp only [dataLoop, he, Bool.false_eq_true, if_false, hat]
      have hturns : ∀ t ∈ scripts.headD [], m.Allows t := by
        cases scripts with
        | nil => exact fun t ht => absurd ht List.not_mem_nil
        | cons turns rest => exact fun t ht => hs.1 t (List.mem_append_left _ ht)
      have hflow : Flowing m (update (fun h => { h with script := scripts.headD [] }) c) :=
        ⟨(h.scripted _).counted, hopen, hgoing, h.errno hopen, hturns, hs.2⟩
      have hleft := left_execute hd hflow ((s.bytes.drop data.consumedOffset).take (data.contiguousSize id))
      split
      · rename_i hpause
        rw [Left, hpause] at hleft
        rw [copyToPendingInput_empty (consume_errorPos hwf hlen hpos)]
        exact Or.inl (Flowing.sound hleft)
      · rename_i hpause
        have hhandle := hleft.handle hpause
        split
        · exact Or.inr (hhandle.2 ‹_›)
        · have hnext := hhandle.1 (eq_false_of_ne_true ‹_›)
          refine ih hnext.sound hnext.opened hnext.going ⟨fun t ht => hs.1 t ?_, hnext.behaves.2⟩
            (Chain.wf_consumed hwf _) ?_
          · cases scripts with
            | nil => exact ht
            | cons turns rest => exact List.mem_append_right _ ht
          · rw [Chain.bytes_consumed hwf, List.length_drop]
            omega

/-- **`OnData`.** -/
theorem sound_onData (h : Sound c) (hgoing : c.closed = true ∨ c.donePending = false)
    {scripts : List (List Turn)} (hs : Steady m scripts.flatten c) {data : Chain} (hwf : Chain.WF data)
    (hlen : (Chain.bytes data).length ≤ 2 ^ 63)
    (hwhole : (onData deliver scripts data c).1.closed = true →
      c.closed = true ∨ (onData deliver scripts data c).1.own.messageComplete = true) :
    Sound (onData deliver scripts data c).1 := by
  cases hc : c.closed with
  | true =>
    simp only [onData, hc, if_true]
    exact h
  | false =>
    have heq : (onData deliver scripts data c).1 = (dataLoop deliver data.size scripts data c.enter).1.leave := by
      rw [onData, hc, dataBody, enter_own, if_pos h.counted.input]
      rfl
    rw [heq] at hwhole ⊢
    have hgoing := hgoing.resolve_left fun hn => absurd (hc.symm.trans hn) Bool.false_ne_true
    rcases sound_dataLoop hd h.enter hc hgoing data.size hs hwf hlen with hsound | hfinished
    · exact hsound.leave
    · rw [leave_closed, leave_own] at hwhole
      have hm := (hwhole hfinished.1).resolve_left fun hn => absurd (hc.symm.trans hn) Bool.false_ne_true
      exact (hfinished.sound hm).leave

/-- The common end of a complete response and of the connection. -/
theorem sound_complete (h : Sound c) (hm : c.own.messageComplete = true) (hb : Behaves m c) :
    Sound (complete deliver c) := by
  have hfinish : ∀ d : Component (HttpClient L), Counted d → d.own.messageComplete = true →
      Sound d.emitDone.requestClose :=
    fun d hcounted hcomplete => (hcounted.finish hcomplete).sound (requestClose_closed _)
  cases he : c.own.pendingChain.empty with
  | true =>
    simp only [complete, completeWithFlush, flushPendingData, he, if_true, Bool.false_eq_true, if_false]
    exact hfinish c h.counted hm
  | false =>
    obtain rfl := hb.calm he
    have hturn := hd.calm c hm hb.1
    have hsound := hturn.sound h
    have hcomplete := hturn.messageComplete.trans hm
    simp only [complete, completeWithFlush, flushPendingData, he, Bool.false_eq_true, if_false]
    cases (deliver c).suspended with
    | true => exact hsound.deferOnDone hcomplete
    | false =>
      cases (deliver c).own.pendingChain.empty with
      | true => exact hfinish _ hsound.counted hcomplete
      | false => exact (hsound.counted.fail hcomplete _).sound (requestClose_closed _)

/-- `FlushAndComplete` of a complete response. -/
theorem sound_flushAndComplete (h : Sound c) (hm : c.own.messageComplete = true) (hb : Behaves m c) :
    Sound (flushAndComplete deliver c) := by
  simp only [flushAndComplete, h.counted.input, if_true, flushRest, finishMessage, hm, Bool.false_eq_true,
    if_false]
  split
  · exact (h.counted.fail hm _).sound (requestClose_closed _)
  · exact sound_complete hd h hm hb

/-- **The deferred end of the connection** is that of a complete response. -/
theorem sound_completeDeferred (h : Sound c) (hb : c.donePending = true → Behaves m c) :
    Sound (c.completeDeferred (flushAndComplete deliver)) := by
  rw [completeDeferred]
  split
  · rename_i hcond
    exact sound_flushAndComplete hd h.clearDone (h.counted.deferred hcond.1) (hb hcond.1)
  · exact h

theorem turned_forwardData (hm : c.own.messageComplete = true) (hb : Behaves m c) :
    Turned c (c.forwardData HttpClient.pendingChain deliver).1 ∧
      Behaves m (c.forwardData HttpClient.pendingChain deliver).1 := by
  rw [forwardData]
  split
  · exact ⟨.refl c, hb⟩
  · rename_i he
    obtain rfl := hb.calm (eq_false_of_ne_true he)
    have hturn := hd.calm c hm hb.1
    exact ⟨hturn, hturn.behaves hb⟩

theorem midway_forwardData (h : Flowing m c) (hw : Midway m c) :
    Flowing m (c.forwardData HttpClient.pendingChain deliver).1 ∧
      Midway m (c.forwardData HttpClient.pendingChain deliver).1 := by
  rw [forwardData]
  split
  · exact ⟨h, hw⟩
  · exact hd.midway m c h.counted h.opened h.going h.errno h.behaves.1 hw

omit hd in
theorem resumeParser_eq (h : Counted c) : resumeParser deliver c = unpause c := by
  have hinput : (unpause c).own.pendingInput.empty = true := by
    rw [Http.unpause, update]
    split <;> exact h.input
  rw [resumeParser, processInput]
  cases (unpause c).own.pendingInput.size with
  | zero => rfl
  | succ n => rw [processPendingInput, if_pos hinput]

omit hd in
theorem midway_unpause (hw : Midway m c) : Midway m (unpause c) := by
  rw [Http.unpause, update]
  split <;> exact hw

/-- `ProcessPending`, **while the parser runs**. -/
theorem midway_processPending (h : Flowing m c) (hw : Midway m c) :
    Flowing m (processPending deliver c) ∧ Midway m (processPending deliver c) := by
  have hfirst := midway_forwardData hd h hw
  simp only [processPending]
  generalize c.forwardData HttpClient.pendingChain deliver = r at hfirst ⊢
  obtain ⟨hflow, hmidway⟩ := hfirst
  split
  · exact ⟨hflow, hmidway⟩
  split
  · rename_i hcond
    -- whoever is calm has not seen the end of the message
    have hgreedy : m = .greedy := by
      cases m with
      | calm => exact absurd ((hmidway rfl).symm.trans hcond.1) Bool.false_ne_true
      | greedy => rfl
    subst hgreedy
    have hempty := hflow.behaves.2 rfl
    have hsecond : r.1.forwardData HttpClient.pendingChain deliver = (r.1, false) := by
      rw [forwardData, if_pos hempty]
    have hreset := hflow.reset hcond.1
    simp only [hsecond, hempty, Bool.not_true, Bool.false_eq_true, if_false]
    rw [resumeParser_eq hreset.counted]
    exact ⟨hreset.unpause, Manner.noConfusion⟩
  · rw [resumeParser_eq hflow.counted]
    exact ⟨hflow.unpause, midway_unpause hmidway⟩

/-- The same **where a message is complete**. -/
theorem turned_processPending (h : Sound c) (hopen : c.closed = false) (hm : c.own.messageComplete = true)
    (hb : Behaves m c) :
    Sound (processPending deliver c) ∧
      ((processPending deliver c).donePending = true → Behaves m (processPending deliver c)) := by
  have hfirst := turned_forwardData hd hm hb
  simp only [processPending]
  generalize c.forwardData HttpClient.pendingChain deliver = r at hfirst ⊢
  obtain ⟨hturn, hb⟩ := hfirst
  have hsound := hturn.sound h
  split
  · exact ⟨hsound, fun _ => hb⟩
  split
  · rename_i hcond
    have hsecond := turned_forwardData hd hcond.1 hb
    generalize r.1.forwardData HttpClient.pendingChain deliver = r' at hsecond ⊢
    obtain ⟨hturn', hb'⟩ := hsecond
    have hsound' := hturn'.sound hsound
    have hm := hturn'.messageComplete.trans hcond.1
    have hgoing := hturn'.donePending.trans hcond.2.2
    have hopened := (hturn'.closed.trans hturn.closed).trans hopen
    split
    · exact ⟨hsound', fun _ => hb'⟩
    split
    · refine ⟨(hsound'.counted.fail hm _).sound (requestClose_closed _), fun hd => ?_⟩
      rw [error_donePending] at hd
      exact absurd (hgoing.symm.trans hd) Bool.false_ne_true
    · have hflow : Flowing m r'.1 := ⟨hsound'.counted, hopened, hgoing, hsound'.errno hopened, hb'⟩
      have hreset := hflow.reset hm
      rw [resumeParser_eq hreset.counted]
      exact ⟨hreset.unpause.sound, fun _ => hreset.unpause.behaves⟩
  · rw [resumeParser_eq hsound.counted]
    refine ⟨hsound.unpause, fun _ => ?_⟩
    rw [Http.unpause, update]
    split <;> exact hb

/-- **`ProcessPending`**, of an open client. -/
theorem sound_processPending (h : Sound c) (hopen : c.closed = false) (hb : Behaves m c) :
    Sound (processPending deliver c) ∧
      ((processPending deliver c).donePending = true → Behaves m (processPending deliver c)) := by
  cases hm : c.own.messageComplete with
  | true => exact turned_processPending hd h hopen hm hb
  | false =>
    have hgoing : c.donePending = false :=
      eq_false_of_ne_true fun hd => absurd (hm.symm.trans (h.counted.deferred hd)) Bool.false_ne_true
    have hflow := (midway_processPending hd ⟨h.counted, hopen, hgoing, h.errno hopen, hb⟩ fun _ => hm).1
    exact ⟨hflow.sound, fun _ => hflow.behaves⟩

/-- **`Resume`.** -/
theorem sound_resume (h : Sound c) (hb : Behaves m c) : Sound (resume deliver c) := by
  have hcount : ∀ n, Sound { c with suspendCount := n } := fun n => h.alike (alike_count c n)
  rw [resume]
  by_cases hone : c.suspendCount = 1
  · cases hc : c.closed with
    | true =>
      rw [resume_of_closed hone hc]
      exact sound_completeDeferred hd (hcount 0) fun _ => hb
    | false =>
      rw [resume_of_eq hone hc]
      obtain ⟨hsound, hbehaves⟩ := sound_processPending hd (c := c.resumed) (hcount 0).enter hc hb
      refine Sound.leave (sound_completeDeferred hd (m := m) (hsound.alike (alike_resumeUpstream _)) ?_)
      · rw [resumeUpstream]
        split
        · exact hbehaves
        · exact hbehaves
  · rw [resume_of_ne hone]
    exact hcount _

/-- **The end of a close-delimited response** that is an error, or whose client is suspended. -/
theorem sound_onMessageComplete (h : Flowing m c) (hs : 300 ≤ c.own.statusCode ∨ c.suspended = true) :
    let r := onMessageComplete deliver c
    Sound r.1 ∧ (r.2 = true →
      r.1.own.messageComplete = true ∧ r.1.suspended = true ∧ ¬300 ≤ r.1.own.statusCode) := by
  have hpause : ∀ d : Component (HttpClient L), Flowing m d → d.own.messageComplete = true →
      d.suspended = true → ¬300 ≤ d.own.statusCode → Sound (pause d) ∧ (True →
        (pause d).own.messageComplete = true ∧ (pause d).suspended = true ∧
          ¬300 ≤ (pause d).own.statusCode) := by
    intro d hflow hm hsus hstatus
    refine ⟨hflow.pause.sound, fun _ => ?_⟩
    rw [pause, update]
    split <;> exact ⟨hm, hsus, hstatus⟩
  simp only [onMessageComplete]
  split
  · exact ⟨(h.record.counted.fail rfl _).sound (requestClose_closed _), fun hr => absurd hr Bool.false_ne_true⟩
  · rename_i hstatus
    have hsus : (recordMessage c).suspended = true := hs.resolve_left hstatus
    have hrecord := h.record
    have hm : (recordMessage c).own.messageComplete = true := rfl
    have hlow : ¬300 ≤ (recordMessage c).own.statusCode := hstatus
    generalize recordMessage c = d at hsus hrecord hm hlow ⊢
    cases he : d.own.pendingChain.empty with
    | true =>
      simp only [succeed, he, if_true, completeMessage, hsus]
      exact hpause d hrecord hm hsus hlow
    | false =>
      obtain rfl := hrecord.behaves.calm he
      have hturn := hd.calm d hm hrecord.behaves.1
      have hflow := hturn.flowing hrecord
      have hsame : (deliver d).suspended = true ∧ (deliver d).own.statusCode = d.own.statusCode := by
        obtain ⟨n, _, _, _, _, heq, _⟩ := hturn
        rw [suspended_iff] at hsus ⊢
        rw [heq]
        exact ⟨Nat.lt_of_lt_of_le hsus (Nat.le_add_right _ n), rfl⟩
      simp only [succeed, he, Bool.false_eq_true, if_false, hsame.1, if_true]
      exact hpause _ hflow (hturn.messageComplete.trans hm) hsame.1 (hsame.2 ▸ hlow)

/-- **`OnDone`** to a client that owes a signal, or comes to owe one. -/
theorem sound_onDone (h : Sound c) (hb : Behaves m c)
    (hends : c.closed = true ∨ c.own.messageComplete = true ∨ L.finish c.own.parser = .safeWithCallback ∧
      c.own.errno = .ok ∧ (300 ≤ c.own.statusCode ∨ c.suspended = true)) :
    Sound (onDone deliver c) := by
  rw [onDone, guarded]
  split
  · exact h
  rename_i hopen
  have hopen : c.enter.closed = false := eq_false_of_ne_true hopen
  have hends : c.enter.own.messageComplete = true ∨ L.finish c.enter.own.parser = .safeWithCallback ∧
      c.enter.own.errno = .ok ∧ (300 ≤ c.enter.own.statusCode ∨ c.enter.suspended = true) :=
    hends.resolve_left fun hc => absurd (hc.symm.trans hopen) Bool.true_eq_false.mp
  have hb : Behaves m c.enter := hb
  refine Sound.leave ?_
  have henter := h.enter
  generalize c.enter = d at henter hopen hends hb ⊢
  simp only [doneBody, henter.counted.input, if_true]
  cases hm : d.own.messageComplete with
  | true =>
    simp only [finishMessage, hm, if_true, Bool.false_eq_true, if_false]
    split
    · exact (henter.counted.fail hm _).sound (requestClose_closed _)
    split
    · exact henter.deferOnDone hm
    · exact sound_complete hd henter hm hb
  | false =>
    obtain ⟨hfinish, herrno, hs⟩ := hends.resolve_left fun ht => absurd (hm.symm.trans ht) Bool.false_ne_true
    have hgoing : d.donePending = false :=
      eq_false_of_ne_true fun ht => absurd (hm.symm.trans (henter.counted.deferred ht)) Bool.false_ne_true
    obtain ⟨hsound, hgoes⟩ := sound_onMessageComplete hd ⟨henter.counted, hopen, hgoing, Or.inl herrno, hb⟩ hs
    simp only [finishMessage, hm, finish, herrno, hfinish, handleParseError_callback, Bool.false_eq_true,
      if_false, ne_eq, not_true]
    split
    · exact hsound
    · rename_i hr
      obtain ⟨hcomplete, hsus, hlow⟩ := hgoes (by simpa using hr)
      rw [if_neg fun hcond => hlow hcond.1, if_pos hsus]
      exact hsound.deferOnDone hcomplete

end Inputs

/-! ### The downstream -/

theorem Manner.Allows.head {m : Manner} {turns : List Turn} (h : ∀ t ∈ turns, m.Allows t) :
    m.Allows (turns.headD {}) := by
  cases turns with
  | nil =>
    cases m with
    | calm => exact List.not_mem_nil
    | greedy => rfl
  | cons t turns => exact h t List.mem_cons_self

theorem foldl_suspend {ask : Ask → Component (HttpClient L) → Component (HttpClient L)}
    (hask : ∀ c, ask .suspend c = c.suspend) {asks : List Ask} (hs : .resume ∉ asks)
    (c : Component (HttpClient L)) :
    asks.foldl (fun c a => ask a c) c = Component.suspend^[asks.length] c := by
  induction asks generalizing c with
  | nil => rfl
  | cons a asks ih =>
    rw [List.mem_cons, not_or] at hs
    obtain rfl : a = .suspend := by
      cases a with
      | suspend => rfl
      | resume => exact absurd rfl hs.1
    rw [List.foldl_cons, hask, ih hs.2, List.length_cons, Function.iterate_succ_apply]

/-- **A calm turn** at the end of a message suspends at most. -/
theorem turned_takeTurn {ask : Ask → Component (HttpClient L) → Component (HttpClient L)}
    (hask : ∀ c, ask .suspend c = c.suspend) {c : Component (HttpClient L)} (hm : c.own.messageComplete = true)
    (hs : ∀ t ∈ c.own.script, Manner.calm.Allows t) : Turned c (takeTurn ask c) := by
  simp only [takeTurn, hm, if_true]
  rw [foldl_suspend hask (Manner.Allows.head hs)]
  obtain ⟨upstream, heq⟩ := iterate_suspend (c.own.script.headD {}).asksAtEnd.length (update (fun h =>
    { h with
      script := h.script.tail
      delivered := h.delivered ++ (Chain.bytes h.pendingChain).take
        (min ((c.own.script.headD {}).consume.getD c.own.pendingChain.size) c.own.pendingChain.size)
      pendingChain := h.pendingChain.consume id
        (min ((c.own.script.headD {}).consume.getD c.own.pendingChain.size) c.own.pendingChain.size) }) c)
  exact ⟨_, upstream, _, _, _, heq, fun _ ht => List.mem_of_mem_tail ht, fun hwf => Chain.wf_consumed hwf _⟩

theorem midway_foldl {m : Manner} {ask : Ask → Component (HttpClient L) → Component (HttpClient L)}
    (hask : ∀ a c, Flowing m c → Midway m c → Flowing m (ask a c) ∧ Midway m (ask a c)) (asks : List Ask)
    {c : Component (HttpClient L)} (h : Flowing m c) (hw : Midway m c) :
    Flowing m (asks.foldl (fun c a => ask a c) c) ∧ Midway m (asks.foldl (fun c a => ask a c) c) := by
  induction asks generalizing c with
  | nil => exact ⟨h, hw⟩
  | cons a asks ih => exact ih (hask a c h hw).1 (hask a c h hw).2

/-- What a turn has left of the bytes: whoever is greedy, nothing. -/
theorem greedy_takes {c : Component (HttpClient L)} (hwf : Chain.WF c.own.pendingChain)
    (hs : ∀ t ∈ c.own.script, Manner.greedy.Allows t) :
    (c.own.pendingChain.consume id (min ((c.own.script.headD {}).consume.getD c.own.pendingChain.size)
      c.own.pendingChain.size)).empty = true := by
  have hall : (c.own.script.headD {}).consume = none := Manner.Allows.head hs
  have hsize : c.own.pendingChain.size = (Chain.bytes c.own.pendingChain).length := Chain.size_eq hwf
  rw [hall, Option.getD_none, Nat.min_self, Chain.empty_iff (Chain.wf_consumed hwf _), Chain.bytes_consumed hwf, hsize]
  exact List.drop_eq_nil_iff.mpr (Nat.le_refl _)

/-- **A turn within a message**, or of whoever takes everything: the parser goes on behind whatever it calls. -/
theorem midway_takeTurn {m : Manner} {ask : Ask → Component (HttpClient L) → Component (HttpClient L)}
    (hask : ∀ a c, Flowing m c → Midway m c → Flowing m (ask a c) ∧ Midway m (ask a c))
    {c : Component (HttpClient L)} (h : Counted c) (hopen : c.closed = false) (hgoing : c.donePending = false)
    (herrno : c.own.errno = .ok ∨ c.own.errno = .paused) (hs : ∀ t ∈ c.own.script, m.Allows t)
    (hw : Midway m c) : Flowing m (takeTurn ask c) ∧ Midway m (takeTurn ask c) := by
  rw [takeTurn]
  refine midway_foldl hask _ ?_ hw
  refine ⟨h.congr rfl rfl rfl rfl rfl rfl rfl (Chain.wf_consumed h.wf _), hopen, hgoing, herrno,
    fun t ht => hs t (List.mem_of_mem_tail ht), ?_⟩
  rintro rfl
  exact greedy_takes h.wf hs

theorem Midway.alike {m : Manner} {c c' : Component (HttpClient L)} (hw : Midway m c) (ha : Alike c c') :
    Midway m c' := by
  rw [Midway, ha.own]
  exact hw

/-- `Resume` inside such an `OnData`. -/
theorem midway_resume {deliver : Component (HttpClient L) → Component (HttpClient L)} (hd : Delivers deliver)
    {m : Manner} {c : Component (HttpClient L)} (h : Flowing m c) (hw : Midway m c) :
    Flowing m (resume deliver c) ∧ Midway m (resume deliver c) := by
  rw [Http.resume]
  by_cases hone : c.suspendCount = 1
  · rw [resume_of_eq hone h.opened]
    have hresumed : Flowing m c.resumed := (h.alike (alike_count c 0)).alike (alike_enter _)
    obtain ⟨hpending, hmidway⟩ := midway_processPending hd hresumed (c := c.resumed) hw
    generalize processPending deliver c.resumed = e at hpending hmidway ⊢
    have hup := hpending.alike (alike_resumeUpstream e)
    rw [completeDeferred, if_neg fun hcond => absurd (hup.going.symm.trans hcond.1) Bool.false_ne_true]
    exact ⟨hup.alike (alike_leave _), (hmidway.alike (alike_resumeUpstream e)).alike (alike_leave _)⟩
  · rw [resume_of_ne hone]
    exact ⟨h.alike (alike_count c _), hw⟩

/-- **The downstream**, by its manner. -/
theorem delivers_downstream (depth : ℕ) : Delivers (L := L) (downstream depth) := by
  induction depth with
  | zero =>
    refine ⟨fun c hm hs => turned_takeTurn (fun _ => rfl) hm hs, fun m c h hopen hgoing herrno hs hw => ?_⟩
    refine midway_takeTurn (fun a d hflow hmidway => ?_) h hopen hgoing herrno hs hw
    cases a with
    | suspend => exact ⟨hflow.alike (alike_suspend d), hmidway.alike (alike_suspend d)⟩
    | resume => exact ⟨hflow, hmidway⟩
  | succ depth ih =>
    refine ⟨fun c hm hs => turned_takeTurn (fun _ => rfl) hm hs, fun m c h hopen hgoing herrno hs hw => ?_⟩
    refine midway_takeTurn (fun a d hflow hmidway => ?_) h hopen hgoing herrno hs hw
    cases a with
    | suspend => exact ⟨hflow.alike (alike_suspend d), hmidway.alike (alike_suspend d)⟩
    | resume =>
      dsimp only
      split
      · exact midway_resume ih hflow hmidway
      · exact ⟨hflow, hmidway⟩

/-! ### Runs -/

/-- Responses are received completely: the upstream sends nothing after its end, and what it sends does not
make the client close inside a response. -/
def Received (depth : ℕ) (c : Component (HttpClient L)) : Input → Prop
  | .data segments fits scripts => (c.closed = true ∨ c.donePending = false) ∧
      ((step depth c (.data segments fits scripts)).closed = true →
        c.closed = true ∨ (step depth c (.data segments fits scripts)).own.messageComplete = true)
  | _ => True

/-- **The end comes in time**: to a closed client, or while a response is owed; a close-delimited response
may end with it that is an error, or finds its client suspended between two pieces of its body.  In the flush
at the end of a message the downstream calls no `Resume`, or it takes everything throughout. -/
def Timely (c : Component (HttpClient L)) : Input → Prop
  | .data _ _ scripts => ∃ m, Steady m scripts.flatten c
  | .done script => (∃ m, Steady m script c) ∧ (c.closed = true ∨ c.own.messageComplete = true ∨
      L.finish c.own.parser = .safeWithCallback ∧ c.own.errno = .ok ∧
        (300 ≤ c.own.statusCode ∨ c.suspended = true))
  | .error _ => c.closed = true ∨ c.own.messageComplete = true
  | .resume script => ∃ m, Steady m script c
  | _ => True

/-- **One input.** -/
theorem sound_step (depth : ℕ) {c : Component (HttpClient L)} (h : Sound c) {i : Input}
    (hreceived : Received depth c i) (htimely : Timely c i) : Sound (step depth c i) := by
  have hd := delivers_downstream (L := L) depth
  cases i with
  | data segments fits scripts =>
    obtain ⟨m, hs⟩ := htimely
    obtain ⟨hwf, hbytes⟩ := Chain.appendAll_spec (Chain.wf_empty none) segments
    refine sound_onData hd h hreceived.1 hs hwf ?_ hreceived.2
    rw [hbytes]
    exact fits
  | done script =>
    obtain ⟨⟨m, hs⟩, hends⟩ := htimely
    exact sound_onDone hd (m := m) (h.scripted script) hs hends
  | error e =>
    show Sound (c.propagateError e)
    rw [propagateError, guarded]
    split
    · exact h
    · rename_i hopen
      have hm := htimely.resolve_left hopen
      exact ((h.enter.counted.fail hm e).sound (requestClose_closed _)).leave
  | suspend => exact h.alike (alike_suspend c)
  | resume script =>
    obtain ⟨m, hs⟩ := htimely
    show Sound (if c.suspended then _ else c)
    split
    · exact sound_resume hd (m := m) (h.scripted script) hs
    · exact h
  | close =>
    show Sound (if c.closeScheduled then doClose c else c)
    split
    · exact ⟨⟨h.counted.count, h.counted.finalized, rfl, Chain.wf_cleared _, h.counted.deferred⟩, h.errno⟩
    · exact h

theorem doneBody_at_rest {deliver : Component (HttpClient L) → Component (HttpClient L)}
    {c : Component (HttpClient L)} (hinput : c.own.pendingInput.empty = true)
    (hm : c.own.messageComplete = false) (hsafe : L.finish c.own.parser = .safe) (hstatus : c.own.statusCode < 300)
    (hempty : c.own.pendingChain.empty = true) (hsus : c.suspended = false) :
    doneBody deliver c = c.emitDone.requestClose := by
  have hfinish : finish deliver c = (c, .ok) := by
    rw [finish, hsafe]
    split <;> rfl
  have hlow : ¬(300 ≤ c.own.statusCode ∧ c.finalized = false) :=
    fun hcond => absurd hcond.1 (Nat.not_le_of_lt hstatus)
  simp only [doneBody, hinput, if_true, finishMessage, hm, hfinish, handleParseError, hlow, hsus, complete,
    completeWithFlush, flushPendingData, hempty, Bool.false_eq_true, if_false]

/-- **Between two responses** an open client reports whatever end it is told of. -/
theorem signals_at_rest (depth : ℕ) {c : Component (HttpClient L)} (h : Sound c) (hopen : c.closed = false)
    (hm : c.own.messageComplete = false) (hsafe : L.finish c.own.parser = .safe) (hstatus : c.own.statusCode < 300)
    (hempty : c.own.pendingChain.empty = true) (hsus : c.suspended = false) (script : List Turn) (e : Error) :
    (step depth c (.done script)).signals = c.signals ++ [.done] ∧
      (step depth c (.error e)).signals = c.signals ++ [.error e] := by
  have hf := h.counted.finalized.trans hopen
  constructor
  · have hclosed : (update (fun h => { h with script := script }) c).closed = false := hopen
    have hfinalized : (update (fun h => { h with script := script }) c).enter.finalized = false := hf
    show (onDone (downstream depth) (update (fun h => { h with script := script }) c)).signals = _
    have hbody : doneBody (downstream depth) (update (fun h => { h with script := script }) c).enter =
        (update (fun h => { h with script := script }) c).enter.emitDone.requestClose :=
      doneBody_at_rest h.counted.input hm hsafe hstatus hempty hsus
    rw [onDone, guarded, hclosed, if_neg Bool.false_ne_true, leave_signals, hbody, signals_done, hfinalized,
      if_neg Bool.false_ne_true]
    rfl
  · show (c.propagateError e).signals = _
    rw [propagateError, guarded, hopen, if_neg Bool.false_ne_true, leave_signals, signals_error, enter_finalized, hf,
      if_neg Bool.false_ne_true, enter_signals]

theorem newClient_sound (L : Llhttp) : Sound (newClient L) :=
  ⟨⟨Nat.le_refl _, rfl, rfl, Chain.wf_empty none, fun hd => absurd hd Bool.false_ne_true⟩, fun _ => Or.inl rfl⟩

/-- **At most one terminal signal for each response**, in a run that receives its responses completely and
whose end comes in time. -/
theorem one_signal_each (L : Llhttp) (depth : ℕ) (inputs : List Input)
    (hreceived : Runs.Along (Received depth) (step depth) (newClient L) inputs)
    (htimely : Runs.Along Timely (step depth) (newClient L) inputs) :
    (Runs.run (step depth) (newClient L) inputs).signals.length ≤
      (Runs.run (step depth) (newClient L) inputs).own.responses.length := by
  have hstep : ∀ (c : Component (HttpClient L)) i, Sound c → Received depth c i ∧ Timely c i →
      Sound (step depth c i) := fun c i h hi => sound_step depth h hi.1 hi.2
  have hsound := Runs.run_preserves hstep (newClient_sound L) (hreceived.and htimely)
  exact Nat.le_of_add_right_le hsound.counted.count

theorem length_okResponse : (okResponse.map Prod.fst).length ≤ Segment.kSize := by decide +kernel

theorem fits_okResponse :
    ([Segment.ofBytes (okResponse.map Prod.fst) length_okResponse].flatMap Segment.bytes).length ≤ 2 ^ 63 := by
  decide +kernel

/-- Inside a body the downstream leaves bytes, suspends and resumes. -/
def hesitant : Turn := { consume := some 1, asks := [.suspend, .resume] }

/-- A response to a suspended client, the end of the connection, and `Resume`. -/
def heldInputs : List Input :=
  [.suspend, .data [Segment.ofBytes (okResponse.map Prod.fst) length_okResponse] fits_okResponse [[hesitant]], .done [],
    .resume []]

theorem one_signal_each_held :
    (Runs.run (step 1) (newClient (canned 200 okResponse)) heldInputs).signals.length ≤
      (Runs.run (step 1) (newClient (canned 200 okResponse)) heldInputs).own.responses.length := by
  have hsteady : ∀ c : Component (HttpClient (canned 200 okResponse)), ∃ m, Steady m [] c :=
    fun _ => ⟨.calm, fun _ ht => absurd ht List.not_mem_nil, Manner.noConfusion⟩
  have hhesitant : ∀ c : Component (HttpClient (canned 200 okResponse)), ∃ m, Steady m [hesitant] c :=
    fun _ => ⟨.calm, fun _ ht => by rw [List.mem_singleton.mp ht]; exact List.not_mem_nil, Manner.noConfusion⟩
  refine one_signal_each _ 1 heldInputs ⟨trivial, ⟨Or.inr rfl, ?_⟩, trivial, trivial, trivial⟩
    ⟨trivial, hhesitant _, ⟨hsteady _, Or.inr (Or.inl ?_)⟩, hsteady _, trivial⟩
  · decide +kernel
  · decide +kernel

/-- **The connection ends after a response that is reported**: that is reported as the end of another. -/
theorem not_one_signal_each :
    ¬∀ (L : Llhttp) (depth : ℕ) (inputs : List Input),
      Runs.Along (Received depth) (step depth) (newClient L) inputs →
      1 ≤ (Runs.run (step depth) (newClient L) inputs).own.responses.length →
      (Runs.run (step depth) (newClient L) inputs).signals.length ≤
        (Runs.run (step depth) (newClient L) inputs).own.responses.length := by
  intro h
  have hreceived : Runs.Along (Received 0) (step 0) (newClient (canned 200 okResponse)) okInputs := by
    refine ⟨⟨Or.inr rfl, ?_⟩, trivial, trivial⟩
    decide +kernel
  exact absurd (h (canned 200 okResponse) 0 okInputs hreceived (by decide +kernel)) (by decide +kernel)

end DbnPipe.Http
