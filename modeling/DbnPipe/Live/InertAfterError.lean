import DbnPipe.Live.Inert

/-!
# CramAuth after an error: whole runs

The handshake of a run compared with **the same stream taken byte by byte**, where nothing happens after an
error because `closed_` is asked before every byte.

* `eventStep` — the stream byte by byte, with the calls of `Subscribe` and `StartStreaming` in their places;
* `Agree` — two components whose handshakes cannot be told apart; the line buffers matter while open only;
* `scan_agree` — a call's bytes lead to the same handshake, however many there are in it;
* `inert_after_error` — **in every run of quiet steps nothing visible follows an error, and the handshake is
  the same for every cutting of the stream**.
-/

namespace DbnPipe.Live

variable (sha256 : List Byte → List Byte)

/-! ### The stream byte by byte -/

/-- What reaches a component: a byte of the stream, or a call. -/
inductive Event where
  | byte (b : Byte)
  | subscribe (p : Subscription)
  | startStreaming
deriving DecidableEq

/-- The events of an input. -/
def Input.events : Input → List Event
  | .data segments _ => (segments.flatMap Segment.bytes).map .byte
  | .subscribe p => [.subscribe p]
  | .startStreaming => [.startStreaming]
  | _ => []

/-- One event; a byte of the stream behind the handshake, or after an error, does nothing. -/
def eventStep (t : Component CramAuth) : Event → Component CramAuth
  | .byte b =>
    if t.closed = true ∨ t.own.state = .streaming then t
    else if kMaxLineLength ≤ t.own.lineBuffer.length then emitOverflow "Line buffer overflow" t
    else byteStep sha256 b t
  | .subscribe p => subscribe p t
  | .startStreaming => startStreaming t

/-- Bytes for a component that takes none. -/
theorem run_bytes {t : Component CramAuth} (h : t.closed = true ∨ t.own.state = .streaming)
    (bs : List Byte) : Runs.run (eventStep sha256) t (bs.map .byte) = t := by
  induction bs with
  | nil => rfl
  | cons b bs ih =>
    rw [List.map_cons, Runs.run_cons, eventStep, if_pos h]
    exact ih

/-! ### Handshakes that cannot be told apart -/

/-- What a component shows of its handshake: the lines written and the states assigned, the state, and, as
long as the stream has not begun, the terminal signals. -/
def outcome (c : Component CramAuth) : List Action × CramAuthState × List Signal :=
  (handshake c.own.log, c.own.state, if c.own.state = .streaming then [] else c.signals)

/-- Two components agree on everything that the handshake depends on. -/
structure Agree (c t : Component CramAuth) : Prop where
  shown : handshake c.own.log = handshake t.own.log
  state : c.own.state = t.own.state
  apiKey : c.own.apiKey = t.own.apiKey
  dataset : c.own.dataset = t.own.dataset
  pending : c.own.pending = t.own.pending
  subscriptionSent : c.own.subscriptionSent = t.own.subscriptionSent
  startRequested : c.own.startRequested = t.own.startRequested
  subCounter : c.own.subCounter = t.own.subCounter
  signals : c.signals = t.signals
  finalized : c.finalized = t.finalized
  closed : c.closed = t.closed
  line : c.closed = false → c.own.lineBuffer = t.own.lineBuffer

variable {c t : Component CramAuth}

theorem Agree.refl (c : Component CramAuth) : Agree c c :=
  ⟨rfl, rfl, rfl, rfl, rfl, rfl, rfl, rfl, rfl, rfl, rfl, fun _ => rfl⟩

theorem Agree.trans {d : Component CramAuth} (h : Agree c d) (h' : Agree d t) : Agree c t :=
  ⟨h.shown.trans h'.shown, h.state.trans h'.state, h.apiKey.trans h'.apiKey, h.dataset.trans h'.dataset,
    h.pending.trans h'.pending, h.subscriptionSent.trans h'.subscriptionSent,
    h.startRequested.trans h'.startRequested, h.subCounter.trans h'.subCounter, h.signals.trans h'.signals,
    h.finalized.trans h'.finalized, h.closed.trans h'.closed,
    fun hc => (h.line hc).trans (h'.line (h.closed.symm.trans hc))⟩

theorem Agree.nextSubscription (h : Agree c t) :
    Live.nextSubscription c.own = Live.nextSubscription t.own := by
  rw [Live.nextSubscription, Live.nextSubscription, h.subscriptionSent, h.pending, h.subCounter]

theorem agree_record (a : Action) (h : Agree c t) : Agree (record a c) (record a t) := by
  refine ⟨?_, h.state, h.apiKey, h.dataset, h.pending, h.subscriptionSent, h.startRequested, h.subCounter,
    h.signals, h.finalized, h.closed, h.line⟩
  have hshown := h.shown
  simp only [handshake] at hshown ⊢
  simp only [record, update_own, List.map_append, List.filter_append, hshown, List.map_cons, List.map_nil]

/-- A line that is written down is not shown. -/
theorem agree_hear (line : List Byte) (c : Component CramAuth) : Agree (hear line c) c := by
  refine ⟨?_, rfl, rfl, rfl, rfl, rfl, rfl, rfl, rfl, rfl, rfl, fun _ => rfl⟩
  simp [handshake, hear, record]

theorem agree_setState (s : CramAuthState) (h : Agree c t) : Agree (setState s c) (setState s t) :=
  let hr := agree_record (.state s) h
  ⟨hr.shown, rfl, hr.apiKey, hr.dataset, hr.pending, hr.subscriptionSent, hr.startRequested, hr.subCounter,
    hr.signals, hr.finalized, hr.closed, hr.line⟩

theorem agree_fail (code : ErrorCode) (message : String) (h : Agree c t) :
    Agree (fail code message c) (fail code message t) := by
  refine ⟨?_, ?_, ?_, ?_, ?_, ?_, ?_, ?_, ?_, ?_, ?_, ?_⟩
  · rw [fail_own, fail_own, h.shown]
  · rw [fail_own, fail_own, h.state]
  · rw [fail_own, fail_own, h.apiKey]
  · rw [fail_own, fail_own, h.dataset]
  · rw [fail_own, fail_own, h.pending]
  · rw [fail_own, fail_own, h.subscriptionSent]
  · rw [fail_own, fail_own, h.startRequested]
  · rw [fail_own, fail_own, h.subCounter]
  · rw [fail_signals, fail_signals, h.signals, h.finalized]
  · rw [fail_finalized, fail_finalized]
  · rw [fail_closed, fail_closed]
  · rw [fail_closed]
    exact fun hc => absurd hc (by simp)

theorem agree_sendLine (line : List Byte) (h : Agree c t) : Agree (sendLine line c) (sendLine line t) := by
  rw [sendLine, sendLine]
  split
  · exact agree_record _ h
  · exact agree_fail _ _ (agree_record _ h)

theorem agree_begin (h : Agree c t) : Agree (begin c) (begin t) :=
  agree_setState _ (agree_sendLine startSession h)

theorem agree_sendPendingSubscription (h : Agree c t) :
    Agree (sendPendingSubscription c) (sendPendingSubscription t) := by
  rw [sendPendingSubscription_eq, sendPendingSubscription_eq, h.nextSubscription, h.startRequested]
  cases Live.nextSubscription t.own with
  | none => exact h
  | some line =>
    have hcount : Agree (countSubscription c) (countSubscription t) :=
      ⟨h.shown, h.state, h.apiKey, h.dataset, h.pending, h.subscriptionSent, h.startRequested,
        congrArg (fun n => (n + 1) % 2 ^ 32) h.subCounter, h.signals, h.finalized, h.closed, h.line⟩
    have hs := agree_sendLine line hcount
    have hsent : Agree (markSent (sendLine line (countSubscription c)))
        (markSent (sendLine line (countSubscription t))) :=
      ⟨hs.shown, hs.state, hs.apiKey, hs.dataset, hs.pending, rfl, hs.startRequested, hs.subCounter,
        hs.signals, hs.finalized, hs.closed, hs.line⟩
    simp only
    split
    · exact agree_begin hsent
    · exact hsent

theorem agree_queue (p : Subscription) (h : Agree c t) : Agree (queue p c) (queue p t) :=
  ⟨h.shown, h.state, h.apiKey, h.dataset, rfl, rfl, h.startRequested, h.subCounter, h.signals, h.finalized,
    h.closed, h.line⟩

theorem agree_subscribe (p : Subscription) (h : Agree c t) : Agree (subscribe p c) (subscribe p t) := by
  rw [subscribe_eq, subscribe_eq, h.state]
  split
  · exact agree_sendPendingSubscription (agree_queue p h)
  · exact agree_queue p h

theorem agree_startStreaming (h : Agree c t) : Agree (startStreaming c) (startStreaming t) := by
  have hrequest : Agree (requestStart c) (requestStart t) :=
    ⟨h.shown, h.state, h.apiKey, h.dataset, h.pending, h.subscriptionSent, rfl, h.subCounter, h.signals,
      h.finalized, h.closed, h.line⟩
  rw [startStreaming_eq, startStreaming_eq, h.state, h.subscriptionSent]
  split
  · exact agree_begin hrequest
  · exact hrequest

/-- The greeting does not matter. -/
theorem agree_greeting (g g' : Greeting) (h : Agree c t) :
    Agree (update (fun x => { x with greeting := g }) c) (update (fun x => { x with greeting := g' }) t) :=
  ⟨h.shown, h.state, h.apiKey, h.dataset, h.pending, h.subscriptionSent, h.startRequested, h.subCounter,
    h.signals, h.finalized, h.closed, h.line⟩

theorem agree_processLine (line : List Byte) (h : Agree c t) :
    Agree (processLine sha256 line c) (processLine sha256 line t) := by
  have hheard : Agree (hear line c) (hear line t) := by
    rw [hear, hear, h.state]
    exact agree_record _ h
  rw [processLine, processLine, h.state]
  split
  · rw [handleGreeting, handleGreeting]
    split
    · exact agree_fail _ _ hheard
    · exact agree_setState _ (agree_greeting _ _ hheard)
  · rw [handleChallenge, handleChallenge]
    split
    · exact agree_fail _ _ hheard
    · simp only [hheard.apiKey, hheard.dataset]
      exact agree_setState _ (agree_sendLine _ hheard)
  · obtain ⟨g, hg⟩ := takeSessionId_eq line (hear line c)
    obtain ⟨g', hg'⟩ := takeSessionId_eq line (hear line t)
    rw [handleAuthResponse, handleAuthResponse, hg, hg']
    split
    · exact agree_fail _ _ (agree_greeting _ _ hheard)
    · exact agree_sendPendingSubscription (agree_setState _ (agree_greeting _ _ hheard))
  · exact hheard
  · exact hheard

/-- A byte taken by two open components. -/
theorem agree_byteStep (b : Byte) (h : Agree c t) (hc : c.closed = false) :
    Agree (byteStep sha256 b c) (byteStep sha256 b t) := by
  have hline := h.line hc
  have hpush : Agree (push b c) (push b t) :=
    ⟨h.shown, h.state, h.apiKey, h.dataset, h.pending, h.subscriptionSent, h.startRequested, h.subCounter,
      h.signals, h.finalized, h.closed, fun _ => congrArg (· ++ [b]) hline⟩
  rw [byteStep, byteStep, hline]
  split
  · have hp := agree_processLine sha256 (content t.own.lineBuffer) hpush
    exact ⟨hp.shown, hp.state, hp.apiKey, hp.dataset, hp.pending, hp.subscriptionSent, hp.startRequested,
      hp.subCounter, hp.signals, hp.finalized, hp.closed, fun _ => rfl⟩
  · exact hpush

/-! ### Quiet bytes after an error -/

/-- Reporting one more error shows nothing. -/
theorem agree_fail_closed (code : ErrorCode) (message : String) (h : Sound c) (hc : c.closed = true) :
    Agree (fail code message c) c := by
  have hf : c.finalized = true := by rw [h.finalized, ← h.closed, hc]
  have hown := fail_own code message c
  refine ⟨?_, ?_, ?_, ?_, ?_, ?_, ?_, ?_, ?_, ?_, ?_, ?_⟩
  all_goals try rw [hown]
  · rw [fail_signals, hf, if_pos rfl]
  · rw [fail_finalized, hf]
  · rw [fail_closed, hc]
  · exact fun _ => rfl

theorem agree_quietLine {line : List Byte} (h : Sound c) (hc : c.closed = true)
    (hq : QuietLine sha256 c line) : Agree (processLine sha256 line c) c := by
  have hf : failed c = true := by rw [← h.closed, hc]
  have hheard : Sound (hear line c) := sound_record h fun _ => rfl
  have hagree : Agree (hear line c) c := agree_hear line c
  rw [processLine]
  rw [QuietLine] at hq
  cases hs : c.own.state with
  | waitingGreeting =>
    rw [hs] at hq
    simp only
    rw [handleGreeting]
    cases hg : parseGreeting line with
    | none => exact (agree_fail_closed _ _ hheard hc).trans hagree
    | some greeting =>
      have hopen := hq (by rw [hg]; simp)
      rw [hf] at hopen
      simp at hopen
  | waitingChallenge =>
    rw [hs] at hq
    simp only
    rw [handleChallenge]
    cases hch : parseChallenge line with
    | none => exact (agree_fail_closed _ _ hheard hc).trans hagree
    | some challenge =>
      have hopen := (hq challenge (by rw [hch]; rfl)).1
      rw [hf] at hopen
      simp at hopen
  | authenticating =>
    rw [hs] at hq
    simp only
    obtain ⟨g, hg⟩ := takeSessionId_eq line (hear line c)
    rw [handleAuthResponse, hg]
    cases hauth : authFailure line with
    | some msg =>
      have htake : Sound (update (fun x => { x with greeting := g }) (hear line c)) := sound_update _ rfl hheard
      exact (agree_fail_closed _ _ htake hc).trans (agree_greeting g c.own.greeting hagree)
    | none =>
      have hopen := (hq hauth).1
      rw [hf] at hopen
      simp at hopen
  | ready => exact hagree
  | streaming => exact hagree

/-- The buffer of a closed component does not matter. -/
theorem agree_buffer (hc : c.closed = true) (f : List Byte → List Byte) :
    Agree (update (fun x => { x with lineBuffer := f x.lineBuffer }) c) c :=
  ⟨rfl, rfl, rfl, rfl, rfl, rfl, rfl, rfl, rfl, rfl, rfl, fun ho => absurd (hc.symm.trans ho) (by simp)⟩

/-- A quiet byte after an error shows nothing. -/
theorem agree_quietByte {b : Byte} (h : Sound c) (hc : c.closed = true)
    (hq : b = 10 → QuietLine sha256 c (content c.own.lineBuffer)) : Agree (byteStep sha256 b c) c := by
  have hpush : Agree (push b c) c := agree_buffer hc (· ++ [b])
  by_cases hb : b = 10
  · subst hb
    have hq' : QuietLine sha256 (push 10 c) (content c.own.lineBuffer) := hq rfl
    have hline := agree_quietLine sha256 (sound_update _ rfl h) hc hq'
    rw [byteStep_newline]
    exact (agree_buffer (hline.closed.trans hc) fun _ => []).trans (hline.trans hpush)
  · rw [byteStep_of_ne sha256 hb]
    exact hpush

/-! ### A call's bytes -/

/-- The handshakes of a component and of the stream taken byte by byte: the same states and lines, and
everything else as long as the stream has not begun. -/
structure Matches (c t : Component CramAuth) : Prop where
  state : c.own.state = t.own.state
  shown : handshake c.own.log = handshake t.own.log
  agree : c.own.state ≠ .streaming → Agree c t

theorem Agree.matches (h : Agree c t) : Matches c t := ⟨h.state, h.shown, fun _ => h⟩

/-- **However many bytes a call has**, they lead to the handshake of the bytes one by one. -/
theorem scan_agree {bs : List Byte} (h : SoundText c) (hs : c.own.state ≠ .streaming)
    (hq : AtLines sha256 (QuietLine sha256) bs c) (ha : Agree c t) :
    Matches (scan sha256 bs c).1 (Runs.run (eventStep sha256) t (bs.map .byte)) := by
  induction bs generalizing c t with
  | nil => exact ha.matches
  | cons b bs ih =>
    have hts : t.own.state ≠ .streaming := fun he => hs (ha.state.trans he)
    rw [scan, List.map_cons, Runs.run_cons, eventStep]
    split
    · rename_i hlen
      cases hc : c.closed with
      | true =>
        have htc : t.closed = true := ha.closed.symm.trans hc
        rw [if_pos (Or.inl htc), run_bytes sha256 (Or.inl htc)]
        exact ((agree_fail_closed _ _ h.toSound hc).trans ha).matches
      | false =>
        have hopen : ¬(t.closed = true ∨ t.own.state = .streaming) := by simp [← ha.closed, hc, hts]
        rw [if_neg hopen, ← ha.line hc, if_pos hlen]
        have hover := agree_fail .bufferOverflow "Line buffer overflow" ha
        have hclosed := fail_closed .bufferOverflow "Line buffer overflow" t
        have hrun := run_bytes sha256 (Or.inl hclosed) bs
        rw [emitOverflow, hrun]
        exact hover.matches
    · rename_i hlen
      obtain ⟨hline, hrest⟩ := hq.resolve_left hlen
      have hnext := soundText_byteStep sha256 h hs hline
      cases hc : c.closed with
      | true =>
        have htc : t.closed = true := ha.closed.symm.trans hc
        have hquiet := agree_quietByte sha256 h.toSound hc hline
        have hs' : (byteStep sha256 b c).own.state ≠ .streaming := fun he => hs (hquiet.state.symm.trans he)
        rw [if_pos (Or.inl htc)]
        simp only
        rw [if_neg fun he => hs' he.2]
        exact ih hnext hs' (hrest.resolve_left fun he => hs' he.2) (hquiet.trans ha)
      | false =>
        have hopen : ¬(t.closed = true ∨ t.own.state = .streaming) := by simp [← ha.closed, hc, hts]
        have hboth := agree_byteStep sha256 b ha hc
        rw [if_neg hopen, ← ha.line hc, if_neg hlen]
        simp only
        by_cases hswitch : (byteStep sha256 b c).own.state = .streaming
        · have hb : b = 10 := by
            by_contra hb
            rw [byteStep_of_ne sha256 hb] at hswitch
            exact hs hswitch
          rw [if_pos ⟨hb, hswitch⟩, run_bytes sha256 (Or.inr (hboth.state.symm.trans hswitch))]
          exact hboth.matches
        · rw [if_neg fun he => hswitch he.2]
          exact ih hnext hswitch (hrest.resolve_left fun he => hswitch he.2) hboth

/-! ### Runs -/

/-- Between two inputs. -/
structure SoundIdle (c : Component CramAuth) : Prop extends Sound c where
  line : 10 ∉ c.own.lineBuffer

theorem soundIdle_new (apiKey dataset : List Byte) : SoundIdle (newCramAuth apiKey dataset) :=
  ⟨⟨by simp [Inert, newCramAuth], rfl, rfl, rfl⟩, by simp [newCramAuth]⟩

/-- The guard of a call does not matter. -/
theorem agree_leave (c : Component CramAuth) : Agree c.leave c := by
  have hown := c.leave_own
  refine ⟨?_, ?_, ?_, ?_, ?_, ?_, ?_, ?_, c.leave_signals, c.leave_finalized, c.leave_closed, fun _ => ?_⟩
  all_goals rw [hown]

theorem soundIdle_leave (h : Sound c) (hn : 10 ∉ c.own.lineBuffer) : SoundIdle c.leave :=
  ⟨sound_leave h, by rw [Component.leave_own]; exact hn⟩

theorem Matches.leave (h : Matches c t) : Matches c.leave t :=
  let hl := agree_leave c
  ⟨hl.state.trans h.state, hl.shown.trans h.shown,
    fun hs => hl.trans (h.agree fun he => hs (hl.state.trans he))⟩

/-- **A call of the socket**, in either phase. -/
theorem onData_quiet (depth : ℕ) (segments : List Segment) (h : SoundIdle c)
    (hq : c.closed = true ∨ c.own.state = .streaming ∨
      AtLines sha256 (QuietLine sha256) (segments.flatMap Segment.bytes) c.enter) (hm : Matches c t) :
    SoundIdle (onData (downstream sha256 depth) sha256 (chainOf segments) c).1 ∧
      Matches (onData (downstream sha256 depth) sha256 (chainOf segments) c).1
        (Runs.run (eventStep sha256) t ((segments.flatMap Segment.bytes).map .byte)) := by
  have hdeliver : ∀ acts d, SoundStream acts d → SoundStream acts (downstream sha256 depth d) :=
    fun acts d hd => soundStream_downstream sha256 depth hd
  by_cases hs : c.own.state = .streaming
  · -- the stream has begun: the handshake is over
    have hstream := soundStream_onData sha256 (hdeliver _) (chainOf segments) ⟨h.toSound, h.line, hs, rfl⟩
    rw [run_bytes sha256 (Or.inr (hm.state.symm.trans hs))]
    refine ⟨⟨hstream.toSound, hstream.line⟩, hstream.state.trans (hs.symm.trans hm.state),
      hstream.shown.trans hm.shown, fun hns => absurd hstream.state hns⟩
  have ha := hm.agree hs
  cases hc : c.closed with
  | true =>
    rw [run_bytes sha256 (Or.inl (ha.closed.symm.trans hc)), onData, if_pos hc]
    exact ⟨h, hm⟩
  | false =>
    have hlines := (hq.resolve_left (by simp [hc])).resolve_left hs
    have hsound : SoundText c.enter := ⟨sound_enter h.toSound, h.line, fun he => absurd he hs⟩
    have henter : Agree c.enter t := ⟨ha.shown, ha.state, ha.apiKey, ha.dataset, ha.pending,
      ha.subscriptionSent, ha.startRequested, ha.subCounter, ha.signals, ha.finalized, ha.closed, ha.line⟩
    have htext := soundText_scan sha256 hsound.toSound h.line hs hlines
    have hscan := scan_agree sha256 hsound hs hlines henter
    have hloop := textLoop_scan sha256 (downstream sha256 depth) (wf_chainOf segments) (Nat.le_refl _)
      (c := c.enter) h.line
    rw [bytes_chainOf] at hloop
    rw [onData, hc]
    simp only [Bool.false_eq_true, if_false, if_neg hs, onTextData]
    cases hend : scan sha256 (segments.flatMap Segment.bytes) c.enter with
    | mk c' e =>
      rw [hend] at htext hscan hloop
      cases e with
      | more =>
        rw [hloop]
        exact ⟨soundIdle_leave htext.toSound htext.line, hscan.leave⟩
      | overflow =>
        rw [hloop]
        exact ⟨soundIdle_leave htext.toSound htext.line, hscan.leave⟩
      | streaming rest =>
        obtain ⟨data, -, -, hrest⟩ := hloop
        have hs' := scan_streaming sha256 hend
        have hbegun : SoundStream (handshake c'.own.log) c' := ⟨htext.toSound, htext.line, hs', rfl⟩
        have hdone : SoundStream (handshake c'.own.log)
            (handleRemainingData (downstream sha256 depth) data c').1 := by
          rw [handleRemainingData]
          split
          · exact hbegun
          · exact soundStream_onBinaryData (hdeliver _) data hbegun (htext.switch hs')
        rw [hrest]
        refine ⟨soundIdle_leave hdone.toSound hdone.line, Matches.leave ?_⟩
        exact ⟨hdone.state.trans (hs'.symm.trans hscan.state), hdone.shown.trans hscan.shown,
          fun hns => absurd hdone.state hns⟩

/-- The socket delivers. -/
theorem arrive_quiet (depth : ℕ) (segments : List Segment) (h : SoundIdle c)
    (hq : c.closed = true ∨ c.own.state = .streaming ∨
      AtLines sha256 (QuietLine sha256) (segments.flatMap Segment.bytes) c.enter) (hm : Matches c t) :
    SoundIdle (arrive sha256 (downstream sha256 depth) segments c) ∧
      Matches (arrive sha256 (downstream sha256 depth) segments c)
        (Runs.run (eventStep sha256) t ((segments.flatMap Segment.bytes).map .byte)) := by
  rw [arrive]
  generalize streamed sha256 (segments.flatMap Segment.bytes) c = bytes
  have hreceive : SoundIdle (receive bytes c) := ⟨sound_update _ rfl h.toSound, h.line⟩
  have hagree : Agree (receive bytes c) c := ⟨rfl, rfl, rfl, rfl, rfl, rfl, rfl, rfl, rfl, rfl, rfl, fun _ => rfl⟩
  have hlines : AtLines sha256 (QuietLine sha256) (segments.flatMap Segment.bytes) c.enter →
      AtLines sha256 (QuietLine sha256) (segments.flatMap Segment.bytes) (receive bytes c).enter :=
    atLines_receive sha256 bytes fun _ _ hquiet => hquiet
  exact onData_quiet sha256 depth segments hreceive (hq.imp_right (Or.imp_right hlines))
    ⟨hm.state, hm.shown, fun hs => hagree.trans (hm.agree hs)⟩

/-- **One input**, quiet, that drives the handshake. -/
theorem step_quiet (depth : ℕ) (h : SoundIdle c) (hm : Matches c t) {i : Input} (hi : i.drives = true)
    (hq : Quiet sha256 c i) :
    SoundIdle (step sha256 depth c i) ∧
      Matches (step sha256 depth c i) (Runs.run (eventStep sha256) t i.events) := by
  cases i with
  | data segments script =>
    have hset : SoundIdle (setScript script c) := ⟨sound_update _ rfl h.toSound, h.line⟩
    have hscript : Agree (setScript script c) c :=
      ⟨rfl, rfl, rfl, rfl, rfl, rfl, rfl, rfl, rfl, rfl, rfl, fun _ => rfl⟩
    have hmset : Matches (setScript script c) t :=
      ⟨hm.state, hm.shown, fun hs => hscript.trans (hm.agree hs)⟩
    exact arrive_quiet sha256 depth segments hset hq hmset
  | subscribe p =>
    have hqueue : SoundIdle (queue p c) := ⟨sound_update _ rfl h.toSound, h.line⟩
    rw [step, Input.events, Runs.run_cons, Runs.run_nil, eventStep]
    constructor
    · rw [subscribe_eq]
      split
      · rename_i hready
        refine ⟨sound_sendPendingSubscription hqueue.toSound (hq hready), ?_⟩
        rw [sendPendingSubscription_lineBuffer]
        exact h.line
      · exact hqueue
    · by_cases hs : c.own.state = .streaming
      · have hts : t.own.state = .streaming := hm.state.symm.trans hs
        rw [subscribe_eq, subscribe_eq, if_neg (by simp [hs]), if_neg (by simp [hts])]
        exact ⟨hm.state, hm.shown, fun hns => absurd hs hns⟩
      · exact (agree_subscribe p (hm.agree hs)).matches
  | startStreaming =>
    have hrequest : SoundIdle (requestStart c) := ⟨sound_update _ rfl h.toSound, h.line⟩
    rw [step, Input.events, Runs.run_cons, Runs.run_nil, eventStep]
    constructor
    · rw [startStreaming_eq]
      split
      · rename_i hready
        refine ⟨sound_begin hrequest.toSound (hq hready), ?_⟩
        rw [begin_eq]
        exact h.line
      · exact hrequest
    · by_cases hs : c.own.state = .streaming
      · have hts : t.own.state = .streaming := hm.state.symm.trans hs
        rw [startStreaming_eq, startStreaming_eq, if_neg (by simp [hs]), if_neg (by simp [hts])]
        exact ⟨hm.state, hm.shown, fun hns => absurd hs hns⟩
      · exact (agree_startStreaming (hm.agree hs)).matches
  | done | error | suspend | resume | requestClose | runClose => simp [Input.drives] at hi

/-- A run of quiet inputs. -/
theorem run_quiet (depth : ℕ) {inputs : List Input} (h : SoundIdle c) (hm : Matches c t)
    (hi : ∀ i ∈ inputs, i.drives = true) (hq : Runs.Along (Quiet sha256) (step sha256 depth) c inputs) :
    SoundIdle (Runs.run (step sha256 depth) c inputs) ∧
      Matches (Runs.run (step sha256 depth) c inputs)
        (Runs.run (eventStep sha256) t (inputs.flatMap Input.events)) := by
  induction inputs generalizing c t with
  | nil => exact ⟨h, hm⟩
  | cons i inputs ih =>
    obtain ⟨hnext, hmnext⟩ := step_quiet sha256 depth h hm (hi i List.mem_cons_self) hq.1
    rw [Runs.run_cons, List.flatMap_cons, Runs.run_append]
    exact ih hnext hmnext (fun j hj => hi j (List.mem_cons_of_mem _ hj)) hq.2

theorem Matches.outcome (h : Matches c t) : Live.outcome c = Live.outcome t := by
  rw [Live.outcome, Live.outcome, h.shown, ← h.state]
  by_cases hs : c.own.state = .streaming
  · rw [if_pos hs, if_pos hs]
  · rw [if_neg hs, if_neg hs, (h.agree hs).signals]

/-- **CramAuth is inert after an error**, in every run of quiet steps: no line is written, no state assigned
and no data given to the downstream once an error was emitted, and the handshake shows the same for every
cutting of the stream. -/
theorem inert_after_error (apiKey dataset : List Byte) (depth : ℕ) (inputs : List Input)
    (hi : ∀ i ∈ inputs, i.drives = true)
    (hq : Runs.Along (Quiet sha256) (step sha256 depth) (newCramAuth apiKey dataset) inputs) :
    Inert (Runs.run (step sha256 depth) (newCramAuth apiKey dataset) inputs).own.log ∧
      ∀ depth' inputs', (∀ i ∈ inputs', i.drives = true) →
        Runs.Along (Quiet sha256) (step sha256 depth') (newCramAuth apiKey dataset) inputs' →
        inputs'.flatMap Input.events = inputs.flatMap Input.events →
        outcome (Runs.run (step sha256 depth') (newCramAuth apiKey dataset) inputs') =
          outcome (Runs.run (step sha256 depth) (newCramAuth apiKey dataset) inputs) := by
  have hnew := soundIdle_new apiKey dataset
  have hm := (Agree.refl (newCramAuth apiKey dataset)).matches
  obtain ⟨hsound, hmatch⟩ := run_quiet sha256 depth hnew hm hi hq
  refine ⟨hsound.inert, fun depth' inputs' hi' hq' hevents => ?_⟩
  obtain ⟨-, hmatch'⟩ := run_quiet sha256 depth' hnew hm hi' hq'
  rw [hmatch'.outcome, hmatch.outcome, hevents]

/-- A bad challenge, and a good one in the next call. -/
theorem inert_after_error_badChallenge :
    Inert (Runs.run (step zeroDigest 0) (newCramAuth [] [])
      [call "lsg|0.1\n", call "crm=a\n", call "cram=a\n"]).own.log :=
  (inert_after_error zeroDigest [] [] 0 [call "lsg|0.1\n", call "crm=a\n", call "cram=a\n"]
    (by decide) ⟨by decide +kernel, by decide +kernel, by decide +kernel, trivial⟩).1

/-- **The same stream in one call**: the good challenge behind the bad one is answered, after the error, and
the handshake shows something else. -/
theorem not_inert_after_error :
    ¬Inert (Runs.run (step zeroDigest 0) (newCramAuth [] []) [call "lsg|0.1\ncrm=a\ncram=a\n"]).own.log ∧
      [call "lsg|0.1\ncrm=a\ncram=a\n"].flatMap Input.events =
        [call "lsg|0.1\n", call "crm=a\n", call "cram=a\n"].flatMap Input.events ∧
      outcome (Runs.run (step zeroDigest 0) (newCramAuth [] []) [call "lsg|0.1\ncrm=a\ncram=a\n"]) ≠
        outcome (Runs.run (step zeroDigest 0) (newCramAuth [] [])
          [call "lsg|0.1\n", call "crm=a\n", call "cram=a\n"]) := by
  decide +kernel

end DbnPipe.Live
