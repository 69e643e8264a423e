import DbnPipe.Live.TextScan
import DbnPipe.Library.Runs

/-!
# What CramAuth does after an error

`CramAuth` closes on an error, but the loop over the bytes of a call does not look at `closed_`, and neither
do the callers of `SendLine`.

* `Inert` — nothing visible after an error; a line that `SendLine` refuses is not visible;
* `QuietLine`, `Quiet` — the steps that cannot act after an error: **no line that the state accepts follows
  an error in the same call, and no line sent is too long where something else follows it**;
* `Sound` — closed, finalized and failed are the same, which an error keeps so;
* `SoundText`, `SoundStream` — the same in the loop over the bytes of a call, and once streaming has begun.
-/

namespace DbnPipe.Live

variable (sha256 : List Byte → List Byte)

/-! ### The property and the condition -/

/-- An action that the server, the downstream or `GetState` shows; a line of the server, or a refused one, is not. -/
def Action.visible : Action → Bool
  | .heard _ _ | .refused _ => false
  | .wrote _ | .state _ | .offered => true

/-- After an error no line was written, no state assigned, and no data given to the downstream. -/
def Inert (log : List Entry) : Prop := ∀ e ∈ log, e.late = true → e.action.visible = false

instance (log : List Entry) : Decidable (Inert log) :=
  inferInstanceAs (Decidable (∀ e ∈ log, e.late = true → e.action.visible = false))

/-- The lines written and the states assigned. -/
def handshake (log : List Entry) : List Action :=
  (log.map Entry.action).filter fun
    | .wrote _ | .state _ => true
    | .heard _ _ | .refused _ | .offered => false

/-- Sending the pending subscription is quiet: it fits and no error came before, or nothing follows it. -/
def QuietSubscription (c : Component CramAuth) : Prop :=
  ∀ line ∈ nextSubscription c.own,
    if lineFits line then failed c = false else c.own.startRequested = false

/-- A server line is quiet. -/
def QuietLine (c : Component CramAuth) (line : List Byte) : Prop :=
  match c.own.state with
  | .waitingGreeting => parseGreeting line ≠ none → failed c = false
  | .waitingChallenge =>
    ∀ challenge ∈ parseChallenge line, failed c = false ∧
      lineFits (formatAuthRequest (computeResponse sha256 challenge c.own.apiKey) c.own.dataset) = true
  | .authenticating => authFailure line = none → failed c = false ∧ QuietSubscription c
  | .ready | .streaming => True

/-- A step is quiet. -/
def Quiet (c : Component CramAuth) : Input → Prop
  | .data segments script =>
    c.closed = true ∨ c.own.state = .streaming ∨
      AtLines sha256 (QuietLine sha256) (segments.flatMap Segment.bytes) (setScript script c).enter
  | .subscribe p => c.own.state = .ready → QuietSubscription (queue p c)
  | .startStreaming => c.own.state = .ready ∧ c.own.subscriptionSent = true → failed c = false
  | _ => True

instance (c : Component CramAuth) : Decidable (QuietSubscription c) :=
  inferInstanceAs (Decidable (∀ line ∈ nextSubscription c.own, _))

instance (c : Component CramAuth) (line : List Byte) : Decidable (QuietLine sha256 c line) :=
  match h : c.own.state with
  | .waitingGreeting =>
    decidable_of_iff (parseGreeting line ≠ none → failed c = false) (by rw [QuietLine, h])
  | .waitingChallenge =>
    decidable_of_iff (∀ challenge ∈ parseChallenge line, failed c = false ∧
      lineFits (formatAuthRequest (computeResponse sha256 challenge c.own.apiKey) c.own.dataset) = true)
      (by rw [QuietLine, h])
  | .authenticating =>
    decidable_of_iff (authFailure line = none → failed c = false ∧ QuietSubscription c)
      (by rw [QuietLine, h])
  | .ready => decidable_of_iff True (by rw [QuietLine, h])
  | .streaming => decidable_of_iff True (by rw [QuietLine, h])

instance (c : Component CramAuth) : ∀ i, Decidable (Quiet sha256 c i)
  | .data _ _ => inferInstanceAs (Decidable (c.closed = true ∨ _ ∨ AtLines _ _ _ _))
  | .subscribe _ => inferInstanceAs (Decidable (_ → QuietSubscription _))
  | .startStreaming => inferInstanceAs (Decidable (_ → _))
  | .done _ | .error _ | .suspend | .resume _ | .requestClose | .runClose => inferInstanceAs (Decidable True)

/-- The inputs that drive a handshake and its stream. -/
def Input.drives : Input → Bool
  | .data _ _ | .subscribe _ | .startStreaming => true
  | _ => false

/-! ### What an error keeps -/

/-- A component between two actions: closed, finalized and failed together, and inert. -/
structure Sound (c : Component CramAuth) : Prop where
  inert : Inert c.own.log
  closed : c.closed = failed c
  finalized : c.finalized = failed c
  deferred : c.donePending = false

variable {c : Component CramAuth}

theorem sound_update (f : CramAuth → CramAuth) (hlog : (f c.own).log = c.own.log) (h : Sound c) :
    Sound (update f c) := ⟨by rw [update_own, hlog]; exact h.inert, h.closed, h.finalized, h.deferred⟩

theorem sound_enter (h : Sound c) : Sound c.enter := ⟨h.inert, h.closed, h.finalized, h.deferred⟩

theorem sound_leave (h : Sound c) : Sound c.leave := by
  refine ⟨?_, ?_, ?_, ?_⟩
  · rw [Component.leave_own]; exact h.inert
  · rw [Component.leave_closed, failed_leave]; exact h.closed
  · rw [Component.leave_finalized, failed_leave]; exact h.finalized
  · rw [Component.leave_donePending]; exact h.deferred

theorem sound_count (n : ℕ) (h : Sound c) : Sound { c with suspendCount := n } :=
  ⟨h.inert, h.closed, h.finalized, h.deferred⟩

theorem sound_suspend (h : Sound c) : Sound c.suspend := by
  rw [Component.suspend]
  split <;> exact ⟨h.inert, h.closed, h.finalized, h.deferred⟩

theorem sound_resumeUpstream (h : Sound c) : Sound c.resumeUpstream := by
  rw [Component.resumeUpstream]
  split
  · exact h
  · exact ⟨h.inert, h.closed, h.finalized, h.deferred⟩

theorem sound_record {a : Action} (h : Sound c) (ha : failed c = true → a.visible = false) :
    Sound (record a c) := by
  refine ⟨?_, h.closed, h.finalized, h.deferred⟩
  intro e he hlate
  rcases List.mem_append.mp he with he | he
  · exact h.inert e he hlate
  · rw [List.mem_singleton.mp he] at hlate ⊢
    exact ha hlate

theorem sound_setState (s : CramAuthState) (h : Sound c) (hf : failed c = false) : Sound (setState s c) :=
  sound_update _ rfl (sound_record h fun hf' => by rw [hf] at hf'; simp at hf')

theorem sound_fail (code : ErrorCode) (message : String) (h : Sound c) : Sound (fail code message c) := by
  have hf : failed (fail code message c) = true := by
    rw [failed_fail, h.finalized, Bool.or_not_self]
  refine ⟨?_, ?_, ?_, ?_⟩
  · rw [fail_own]; exact h.inert
  · rw [fail_closed, hf]
  · rw [fail_finalized, hf]
  · rw [fail_donePending]; exact h.deferred

/-! ### The client's lines -/

theorem failed_sendLine (line : List Byte) (c : Component CramAuth) :
    failed (sendLine line c) = (failed c || (!lineFits line && !c.finalized)) := by
  rw [sendLine]
  cases lineFits line with
  | true => simp
  | false =>
    rw [if_neg Bool.false_ne_true, failed_fail, failed_record]
    rfl

theorem sound_sendLine {line : List Byte} (h : Sound c) (hq : lineFits line = true → failed c = false) :
    Sound (sendLine line c) := by
  rw [sendLine]
  split
  · rename_i hfits
    refine sound_record h fun hf => ?_
    rw [hq hfits] at hf
    simp at hf
  · exact sound_fail _ _ (sound_record h fun _ => rfl)

theorem sound_begin (h : Sound c) (hf : failed c = false) : Sound (begin c) := by
  rw [begin_eq]
  refine sound_setState _ (sound_record h fun hf' => ?_) hf
  rw [hf] at hf'
  simp at hf'

theorem failed_begin (c : Component CramAuth) : failed (begin c) = failed c := by
  rw [begin_eq]
  rfl

/-- A quiet subscription; if the stream begins with it, no error has come. -/
theorem sound_sendPendingSubscription (h : Sound c) (hq : QuietSubscription c) :
    Sound (sendPendingSubscription c) := by
  rw [sendPendingSubscription_eq]
  cases hnext : nextSubscription c.own with
  | none => exact h
  | some line =>
    have hq' := hq line (by rw [hnext]; rfl)
    have hcount : Sound (countSubscription c) := sound_update _ rfl h
    have hsent : Sound (markSent (sendLine line (countSubscription c))) := by
      refine sound_update _ rfl (sound_sendLine hcount fun hfits => ?_)
      rw [if_pos hfits] at hq'
      exact hq'
    simp only
    split
    · rename_i hstart
      have hfits : lineFits line = true := by
        by_contra hfits
        rw [if_neg hfits, hstart] at hq'
        simp at hq'
      rw [if_pos hfits] at hq'
      refine sound_begin hsent ?_
      rw [markSent, failed_update, failed_sendLine, hfits, countSubscription, failed_update, hq']
      rfl
    · exact hsent

/-- The stream begins before any error. -/
theorem sendPendingSubscription_switch (hq : QuietSubscription c) (hs : c.own.state ≠ .streaming)
    (hs' : (sendPendingSubscription c).own.state = .streaming) :
    failed (sendPendingSubscription c) = false := by
  rw [sendPendingSubscription_eq] at hs' ⊢
  cases hnext : nextSubscription c.own with
  | none =>
    rw [hnext] at hs'
    exact absurd hs' hs
  | some line =>
    have hq' := hq line (by rw [hnext]; rfl)
    rw [hnext] at hs'
    simp only at hs' ⊢
    split
    · rename_i hstart
      have hfits : lineFits line = true := by
        by_contra hfits
        rw [if_neg hfits, hstart] at hq'
        simp at hq'
      rw [if_pos hfits] at hq'
      rw [failed_begin, markSent, failed_update, failed_sendLine, hfits, countSubscription, failed_update, hq']
      rfl
    · rename_i hstart
      rw [if_neg hstart, markSent, update_own] at hs'
      exact absurd ((sendLine_state line (countSubscription c)).symm.trans hs') hs

/-! ### The server's lines -/

theorem sound_processLine {line : List Byte} (h : Sound c) (hq : QuietLine sha256 c line) :
    Sound (processLine sha256 line c) := by
  have hheard : Sound (hear line c) := sound_record h fun _ => rfl
  rw [processLine]
  rw [QuietLine] at hq
  cases hs : c.own.state with
  | waitingGreeting =>
    rw [hs] at hq
    simp only
    rw [handleGreeting]
    cases hg : parseGreeting line with
    | none => exact sound_fail _ _ hheard
    | some greeting => exact sound_setState _ (sound_update _ rfl hheard) (hq (by rw [hg]; simp))
  | waitingChallenge =>
    rw [hs] at hq
    simp only
    rw [handleChallenge]
    cases hch : parseChallenge line with
    | none => exact sound_fail _ _ hheard
    | some challenge =>
      obtain ⟨hf, hfits⟩ := hq challenge (by rw [hch]; rfl)
      refine sound_setState _ (sound_sendLine hheard fun _ => hf) ?_
      have hfits' : lineFits (formatAuthRequest (computeResponse sha256 challenge (hear line c).own.apiKey)
          (hear line c).own.dataset) = true := hfits
      have hf' : failed (hear line c) = false := hf
      rw [failed_sendLine, hfits', hf']
      rfl
  | authenticating =>
    rw [hs] at hq
    simp only
    obtain ⟨greeting, htake⟩ := takeSessionId_eq line (hear line c)
    rw [handleAuthResponse, htake]
    cases hauth : authFailure line with
    | some msg => exact sound_fail _ _ (sound_update _ rfl hheard)
    | none =>
      obtain ⟨hf, hsub⟩ := hq hauth
      exact sound_sendPendingSubscription (sound_setState _ (sound_update _ rfl hheard) hf) hsub
  | ready => exact hheard
  | streaming => exact hheard

/-- The stream begins before any error. -/
theorem processLine_switch {line : List Byte} (hq : QuietLine sha256 c line) (hs : c.own.state ≠ .streaming)
    (hs' : (processLine sha256 line c).own.state = .streaming) :
    failed (processLine sha256 line c) = false := by
  rw [processLine] at hs' ⊢
  rw [QuietLine] at hq
  cases hstate : c.own.state with
  | waitingGreeting =>
    rw [hstate] at hs'
    simp only [handleGreeting] at hs'
    cases hg : parseGreeting line with
    | none => rw [hg, fail_own] at hs'; exact absurd hs' hs
    | some greeting => rw [hg] at hs'; simp [setState] at hs'
  | waitingChallenge =>
    rw [hstate] at hs'
    simp only [handleChallenge] at hs'
    cases hch : parseChallenge line with
    | none => rw [hch, fail_own] at hs'; exact absurd hs' hs
    | some challenge => rw [hch] at hs'; simp [setState] at hs'
  | authenticating =>
    rw [hstate] at hs' hq
    simp only at hs' hq ⊢
    obtain ⟨greeting, htake⟩ := takeSessionId_eq line (hear line c)
    rw [handleAuthResponse, htake] at hs' ⊢
    cases hauth : authFailure line with
    | some msg => rw [hauth, fail_own] at hs'; exact absurd hs' hs
    | none =>
      rw [hauth] at hs'
      exact sendPendingSubscription_switch (hq hauth).2 (by simp [setState]) hs'
  | ready => rw [hstate] at hs'; exact absurd hs' hs
  | streaming => exact absurd hstate hs

/-! ### The text phase -/

/-- Between two bytes: sound, no newline in the buffer, and no error if the stream has begun. -/
structure SoundText (c : Component CramAuth) : Prop extends Sound c where
  line : 10 ∉ c.own.lineBuffer
  switch : c.own.state = .streaming → failed c = false

theorem soundText_byteStep {b : Byte} (h : SoundText c) (hs : c.own.state ≠ .streaming)
    (hq : b = 10 → QuietLine sha256 c (content c.own.lineBuffer)) : SoundText (byteStep sha256 b c) := by
  have hline := byteStep_lineBuffer sha256 b h.line
  by_cases hb : b = 10
  · have hq' : QuietLine sha256 (push 10 c) (content c.own.lineBuffer) := hq hb
    rw [hb, byteStep_newline] at hline ⊢
    have hsound := sound_processLine sha256 (sound_update _ rfl h.toSound) hq'
    exact ⟨sound_update _ rfl hsound, hline, fun hs' => processLine_switch sha256 hq' hs hs'⟩
  · rw [byteStep_of_ne sha256 hb] at hline ⊢
    exact ⟨sound_update _ rfl h.toSound, hline, fun hs' => absurd hs' hs⟩

theorem soundText_overflow (h : SoundText c) (hs : c.own.state ≠ .streaming) (message : String) :
    SoundText (emitOverflow message c) := by
  rw [emitOverflow]
  refine ⟨sound_fail _ _ h.toSound, ?_, fun hs' => ?_⟩
  · rw [fail_own]
    exact h.line
  · rw [fail_own] at hs'
    exact absurd hs' hs

theorem soundText_scan {bs : List Byte} (h : Sound c) (hn : 10 ∉ c.own.lineBuffer)
    (hs : c.own.state ≠ .streaming) (hq : AtLines sha256 (QuietLine sha256) bs c) :
    SoundText (scan sha256 bs c).1 :=
  scan_preserves sha256 (QuietLine sha256) SoundText
    (fun _ _ hd hds hline => soundText_byteStep sha256 hd hds hline)
    (fun _ hd hds => soundText_overflow hd hds _) hs ⟨h, hn, fun hs' => absurd hs' hs⟩ hq

/-! ### The stream -/

variable {acts : List Action}

/-- Sound, and streaming, after a handshake of these actions. -/
structure SoundStream (acts : List Action) (c : Component CramAuth) : Prop extends Sound c where
  line : 10 ∉ c.own.lineBuffer
  state : c.own.state = .streaming
  shown : handshake c.own.log = acts

theorem soundStream_update (f : CramAuth → CramAuth) (hlog : (f c.own).log = c.own.log)
    (hline : (f c.own).lineBuffer = c.own.lineBuffer) (hstate : (f c.own).state = c.own.state)
    (h : SoundStream acts c) : SoundStream acts (update f c) :=
  ⟨sound_update f hlog h.toSound, by rw [update_own, hline]; exact h.line, hstate.trans h.state,
    by rw [update_own, hlog]; exact h.shown⟩

/-- The guard and the count of suspensions do not matter. -/
theorem soundStream_of_own (h : SoundStream acts c) {d : Component CramAuth} (hd : Sound d)
    (hown : d.own = c.own) : SoundStream acts d := by
  refine ⟨hd, ?_, ?_, ?_⟩
  · rw [hown]
    exact h.line
  · rw [hown]
    exact h.state
  · rw [hown]
    exact h.shown

theorem soundStream_fail (code : ErrorCode) (message : String) (h : SoundStream acts c) :
    SoundStream acts (fail code message c) :=
  soundStream_of_own h (sound_fail _ _ h.toSound) (fail_own _ _ _)

/-- A splice that reports nothing leaves the component as it was, but for a chain. -/
theorem soundStream_toStreaming (source : Chain) (h : SoundStream acts c) :
    SoundStream acts (toStreaming source c).1 ∧
      ((toStreaming source c).2.2 = true → failed (toStreaming source c).1 = failed c) := by
  rw [toStreaming]
  rcases spliceChecked_cases CramAuth.streamingChain (fun chain h => { h with streamingChain := chain })
    source c with ⟨-, he⟩ | ⟨-, -, he⟩ | ⟨-, -, he⟩
  · rw [he]
    exact ⟨h, fun _ => rfl⟩
  · rw [he]
    exact ⟨soundStream_fail _ _ h, fun hf => absurd hf Bool.false_ne_true⟩
  · rw [he]
    dsimp only
    exact ⟨soundStream_update _ rfl rfl rfl h, fun _ => rfl⟩

theorem soundStream_toPending (source : Chain) (h : SoundStream acts c) :
    SoundStream acts (toPending source c).1 := by
  rw [toPending]
  rcases spliceChecked_cases CramAuth.pendingChain (fun chain h => { h with pendingChain := chain })
    source c with ⟨-, he⟩ | ⟨-, -, he⟩ | ⟨-, -, he⟩
  · rw [he]
    exact h
  · rw [he]
    exact soundStream_fail _ _ h
  · rw [he]
    dsimp only
    exact soundStream_update _ rfl rfl rfl h

theorem soundStream_splicePending (h : SoundStream acts c) :
    SoundStream acts (splicePending c).1 ∧
      ((splicePending c).2 = true → failed (splicePending c).1 = failed c) := by
  obtain ⟨hs, hf⟩ := soundStream_toStreaming c.own.pendingChain h
  rw [splicePending]
  dsimp only
  exact ⟨soundStream_update _ rfl rfl rfl hs, hf⟩

section Binary

variable {deliver : Component CramAuth → Component CramAuth}
  (hdeliver : ∀ c, SoundStream acts c → SoundStream acts (deliver c))

include hdeliver

theorem soundStream_offer (h : SoundStream acts c) (hf : failed c = false) :
    SoundStream acts (offer deliver c) := by
  have hrecord : Sound (record .offered c) := sound_record h.toSound fun hf' => by
    rw [hf] at hf'
    simp at hf'
  refine hdeliver _ ⟨sound_update _ rfl hrecord, h.line, h.state, ?_⟩
  rw [← h.shown]
  simp [handshake, record]

theorem soundStream_forwardBinaryData (data : Chain) (h : SoundStream acts c) (hf : failed c = false) :
    SoundStream acts (forwardBinaryData deliver data c).1 := by
  obtain ⟨hp, hpf⟩ := soundStream_splicePending h
  rw [forwardBinaryData]
  simp only
  cases hok : (splicePending c).2 with
  | false => exact hp
  | true =>
    obtain ⟨hs, hsf⟩ := soundStream_toStreaming data hp
    simp only [Bool.not_true, Bool.false_eq_true, if_false]
    cases hok' : (toStreaming data (splicePending c).1).2.2 with
    | false => exact hs
    | true =>
      refine soundStream_offer hdeliver hs ?_
      rw [hsf hok', hpf hok, hf]

theorem soundStream_onBinaryData (data : Chain) (h : SoundStream acts c) (hf : failed c = false) :
    SoundStream acts (onBinaryData deliver data c).1 := by
  rw [onBinaryData]
  split
  · exact soundStream_toPending data h
  · exact soundStream_forwardBinaryData hdeliver data h hf

theorem soundStream_processPending (h : SoundStream acts c) (hf : failed c = false) :
    SoundStream acts (processPending deliver c) := by
  obtain ⟨hp, hpf⟩ := soundStream_splicePending h
  rw [processPending]
  cases hok : (splicePending c).2 with
  | false => exact hp
  | true =>
    simp only [Bool.not_true, Bool.false_eq_true, if_false]
    rw [Component.forwardData]
    split
    · exact hp
    · refine soundStream_offer hdeliver hp ?_
      rw [hpf hok, hf]

/-- `Resume`: there is no deferred `OnDone`. -/
theorem soundStream_resume (h : SoundStream acts c) : SoundStream acts (resume deliver c) := by
  have hdeferred : ∀ d : Component CramAuth, Sound d →
      d.completeDeferred (flushAndComplete deliver) = d := by
    intro d hd
    rw [Component.completeDeferred, hd.deferred]
    simp
  have hcount : ∀ n, SoundStream acts { c with suspendCount := n } := fun n =>
    soundStream_of_own h (sound_count n h.toSound) rfl
  rw [resume]
  by_cases hone : c.suspendCount = 1
  · cases hclosed : c.closed with
    | true =>
      rw [Component.resume_of_closed hone hclosed, hdeferred _ (hcount 0).toSound]
      exact hcount 0
    | false =>
      have hf : failed c = false := by rw [← h.closed, hclosed]
      have hresumed : SoundStream acts c.resumed :=
        soundStream_of_own h (sound_enter (hcount 0).toSound) rfl
      have hprocess := soundStream_processPending hdeliver hresumed hf
      have hup := sound_resumeUpstream hprocess.toSound
      rw [Component.resume_of_eq hone hclosed, hdeferred _ hup]
      refine soundStream_of_own hprocess (sound_leave hup) ?_
      rw [Component.leave_own, Component.resumeUpstream]
      split <;> rfl
  · rw [Component.resume_of_ne hone]
    exact hcount _

theorem soundStream_onData (data : Chain) (h : SoundStream acts c) :
    SoundStream acts (onData deliver sha256 data c).1 := by
  rw [onData]
  cases hclosed : c.closed with
  | true => exact h
  | false =>
    have hf : failed c.enter = false := by rw [failed_enter, ← h.closed, hclosed]
    have henter : SoundStream acts c.enter := soundStream_of_own h (sound_enter h.toSound) rfl
    have hdata := soundStream_onBinaryData hdeliver data henter hf
    simp only [Bool.false_eq_true, if_false, h.state, if_true]
    exact soundStream_of_own hdata (sound_leave hdata.toSound) (Component.leave_own _)

theorem soundStream_arrive (segments : List Segment) (h : SoundStream acts c) :
    SoundStream acts (arrive sha256 deliver segments c) :=
  soundStream_onData sha256 hdeliver _ (soundStream_update _ rfl rfl rfl h)

end Binary

/-- The downstream, whatever it does, keeps a stream sound. -/
theorem soundStream_downstream (depth : ℕ) (h : SoundStream acts c) :
    SoundStream acts (downstream sha256 depth c) := by
  refine downstream_preserves sha256 (fun _ d hd => soundStream_update _ rfl rfl rfl hd)
    (fun _ d hd => soundStream_update _ rfl rfl rfl hd) (fun _ d hd => soundStream_update _ rfl rfl rfl hd)
    (fun d hd => ?_) (fun _ hdeliver d hd _ => soundStream_resume hdeliver hd)
    (fun _ hdeliver segments d hd => soundStream_arrive sha256 hdeliver segments hd) depth h
  exact soundStream_of_own hd (sound_suspend hd.toSound) (Component.suspend_own _)

end DbnPipe.Live
