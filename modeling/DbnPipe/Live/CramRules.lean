import DbnPipe.Live.CramAuth

/-!
# Rules for CramAuth

What every invariant proof about `CramAuth` uses, whatever the invariant says.

* what reporting an error, recording an action and changing the derived part leave alone;
* `sendPendingSubscription_eq` — **the one place where a subscription leaves**, by the line it would send;
* `spliceChecked_cases` — a splice moves all the bytes or reports an overflow;
* `downstream_preserves` — what `Suspend`, `Resume`, a delivery and consuming preserve, any downstream
  preserves, however deep the calls nest.
-/

namespace DbnPipe.Live

/-! ### Reporting an error and recording an action -/

section Fail

variable (code : ErrorCode) (message : String) (c : Component CramAuth)

@[simp] theorem fail_own : (fail code message c).own = c.own := (c.failed _).own

@[simp] theorem fail_closed : (fail code message c).closed = true := (c.failed _).closed

@[simp] theorem fail_finalized : (fail code message c).finalized = true := (c.failed _).finalized

@[simp] theorem fail_suspendCount : (fail code message c).suspendCount = c.suspendCount :=
  (c.failed _).suspendCount

@[simp] theorem fail_donePending : (fail code message c).donePending = c.donePending :=
  (c.failed _).donePending

/-- An error is added unless a terminal signal was given before. -/
theorem fail_signals :
    (fail code message c).signals =
      if c.finalized then c.signals else c.signals ++ [.error { code, message }] :=
  c.signals_error _

theorem failed_fail : failed (fail code message c) = (failed c || !c.finalized) := by
  rw [failed, fail_signals, failed]
  cases c.finalized <;> simp

end Fail

@[simp] theorem update_own (f : CramAuth → CramAuth) (c : Component CramAuth) : (update f c).own = f c.own :=
  rfl

@[simp] theorem failed_update (f : CramAuth → CramAuth) (c : Component CramAuth) :
    failed (update f c) = failed c := rfl

@[simp] theorem failed_record (a : Action) (c : Component CramAuth) : failed (record a c) = failed c := rfl

@[simp] theorem failed_setState (s : CramAuthState) (c : Component CramAuth) :
    failed (setState s c) = failed c := rfl

@[simp] theorem failed_enter (c : Component CramAuth) : failed c.enter = failed c := rfl

@[simp] theorem failed_leave (c : Component CramAuth) : failed c.leave = failed c := by
  rw [failed, Component.leave_signals, failed]

@[simp] theorem failed_suspend (c : Component CramAuth) : failed c.suspend = failed c := by
  rw [Component.suspend]
  split <;> rfl

/-! ### The client's lines -/

/-- The line of the subscription that would be sent next. -/
def nextSubscription (h : CramAuth) : Option (List Byte) :=
  if h.subscriptionSent then none
  else h.pending.map fun p => subscriptionLine p ((h.subCounter + 1) % 2 ^ 32)

/-- The next subscription has its number. -/
def countSubscription : Component CramAuth → Component CramAuth :=
  update fun h => { h with subCounter := (h.subCounter + 1) % 2 ^ 32 }

/-- `subscription_sent_ = true`. -/
def markSent : Component CramAuth → Component CramAuth := update fun h => { h with subscriptionSent := true }

/-- The members that `Subscribe` sets. -/
def queue (p : Subscription) : Component CramAuth → Component CramAuth :=
  update fun h =>
    { h with
      pending := some { p with start := p.start.filter fun start => !start.isEmpty }
      subscriptionSent := false }

/-- `start_requested_ = true`. -/
def requestStart : Component CramAuth → Component CramAuth := update fun h => { h with startRequested := true }

/-- `start_session` is sent and the stream begins. -/
def begin (c : Component CramAuth) : Component CramAuth := setState .streaming (sendLine startSession c)

theorem sendLine_state (line : List Byte) (c : Component CramAuth) :
    (sendLine line c).own.state = c.own.state := by
  rw [sendLine]
  split
  · rfl
  · rw [fail_own]
    rfl

theorem sendLine_startRequested (line : List Byte) (c : Component CramAuth) :
    (sendLine line c).own.startRequested = c.own.startRequested := by
  rw [sendLine]
  split
  · rfl
  · rw [fail_own]
    rfl

/-- **`SendPendingSubscription`**, by the line it sends. -/
theorem sendPendingSubscription_eq (c : Component CramAuth) :
    sendPendingSubscription c =
      match nextSubscription c.own with
      | none => c
      | some line =>
        let c' := markSent (sendLine line (countSubscription c))
        if c.own.startRequested then begin c' else c' := by
  rw [sendPendingSubscription, nextSubscription]
  cases hp : c.own.pending with
  | none => simp
  | some p =>
    cases hs : c.own.subscriptionSent with
    | true => simp
    | false =>
      simp only [Bool.false_eq_true, if_false, Option.map_some, markSent, countSubscription, begin, update_own,
        sendLine_startRequested]

theorem subscribe_eq (p : Subscription) (c : Component CramAuth) :
    subscribe p c = if c.own.state = .ready then sendPendingSubscription (queue p c) else queue p c := rfl

theorem startStreaming_eq (c : Component CramAuth) :
    startStreaming c =
      if c.own.state = .ready ∧ c.own.subscriptionSent = true then begin (requestStart c)
      else requestStart c := rfl

theorem lineFits_startSession : lineFits startSession = true := by decide

/-- `start_session` fits. -/
theorem begin_eq (c : Component CramAuth) : begin c = setState .streaming (record (.wrote startSession) c) := by
  rw [begin, sendLine, if_pos lineFits_startSession]

/-- An auth response changes the greeting only, besides what follows from it. -/
theorem takeSessionId_eq (line : List Byte) (c : Component CramAuth) :
    ∃ greeting, takeSessionId line c = update (fun h => { h with greeting := greeting }) c := by
  rw [takeSessionId]
  by_cases he : (ascii "err=").isPrefixOf line
  · exact ⟨c.own.greeting, by simp only [update, if_pos he]⟩
  · cases (parseAuthResponse line).sessionId with
    | none => exact ⟨c.own.greeting, by simp only [update, if_neg he]⟩
    | some id => exact ⟨{ c.own.greeting with sessionId := id }, by simp only [update, if_neg he]⟩

/-! ### Splicing -/

/-- A checked splice: nothing to do, an overflow, or all the bytes moved. -/
theorem spliceChecked_cases (target : CramAuth → Chain) (put : Chain → CramAuth → CramAuth) (source : Chain)
    (c : Component CramAuth) :
    (source.empty = true ∧ spliceChecked target put source c = (c, source, true)) ∨
    (source.empty = false ∧ (target c.own).wouldOverflow source.size kMaxPendingData = true ∧
      spliceChecked target put source c = (emitOverflow "Binary buffer overflow" c, source, false)) ∨
    (source.empty = false ∧ (target c.own).wouldOverflow source.size kMaxPendingData = false ∧
      spliceChecked target put source c =
        (update (put (Chain.compactAndSplice (target c.own) source).1) c,
          (Chain.compactAndSplice (target c.own) source).2, true)) := by
  rw [spliceChecked]
  cases source.empty <;> cases (target c.own).wouldOverflow source.size kMaxPendingData <;> simp

theorem splicePending_of_empty {c : Component CramAuth} (hp : c.own.pendingChain.empty = true) :
    splicePending c = (c, true) := by
  rw [splicePending, toStreaming, spliceChecked, if_pos hp]
  rfl

/-- With nothing to flush, `OnDone` goes on at once. -/
theorem flushAndComplete_of_empty {c : Component CramAuth} (deliver : Component CramAuth → Component CramAuth)
    (hs : c.own.streamingChain.empty = true) (hp : c.own.pendingChain.empty = true) :
    flushAndComplete deliver c = c.emitDone.requestClose := by
  rw [flushAndComplete, splicePending_of_empty hp]
  simp [Component.completeWithFlush, Component.flushPendingData, hs]

/-! ### What only updates and fails -/

/-- The members of the stream. -/
structure StreamPart where
  streamingChain : Chain
  pendingChain : Chain
  received : List Byte
  consumed : List Byte
  moments : List Moment
  offers : ℕ
  hasDownstream : Bool
  next : Dbn.ParserStage

/-- What a component has of the stream. -/
def streamPart (h : CramAuth) : StreamPart :=
  { streamingChain := h.streamingChain
    pendingChain := h.pendingChain
    received := h.received
    consumed := h.consumed
    moments := h.moments
    offers := h.offers
    hasDownstream := h.hasDownstream
    next := h.next }

section Handshake

variable {P : Component CramAuth → Prop} (hupdate : ∀ f c, streamPart (f c.own) = streamPart c.own → P c → P (update f c))
  (hfail : ∀ code message c, P c → P (fail code message c)) {c : Component CramAuth}

include hupdate

theorem record_preserves (a : Action) (h : P c) : P (record a c) :=
  hupdate _ c rfl h

theorem setState_preserves (s : CramAuthState) (h : P c) : P (setState s c) :=
  hupdate _ _ rfl (record_preserves hupdate _ h)

theorem begin_preserves (h : P c) : P (begin c) := by
  rw [begin_eq]
  exact setState_preserves hupdate _ (record_preserves hupdate _ h)

include hfail

theorem sendLine_preserves (line : List Byte) (h : P c) : P (sendLine line c) := by
  rw [sendLine]
  split
  · exact record_preserves hupdate _ h
  · exact hfail _ _ _ (record_preserves hupdate _ h)

theorem sendPendingSubscription_preserves (h : P c) : P (sendPendingSubscription c) := by
  rw [sendPendingSubscription_eq]
  split
  · exact h
  · rename_i line _
    have hcount : P (countSubscription c) :=
      hupdate _ c rfl h
    have hsent : P (markSent (sendLine line (countSubscription c))) :=
      hupdate _ _ rfl (sendLine_preserves hupdate hfail line hcount)
    simp only
    split
    · exact begin_preserves hupdate hsent
    · exact hsent

theorem subscribe_preserves (p : Subscription) (h : P c) : P (subscribe p c) := by
  have hqueue : P (queue p c) :=
    hupdate _ c rfl h
  rw [subscribe_eq]
  split
  · exact sendPendingSubscription_preserves hupdate hfail hqueue
  · exact hqueue

omit hfail in
theorem startStreaming_preserves (h : P c) : P (startStreaming c) := by
  have hrequest : P (requestStart c) :=
    hupdate _ c rfl h
  rw [startStreaming_eq]
  split
  · exact begin_preserves hupdate hrequest
  · exact hrequest

/-- **A line of the server** only updates the derived part and fails. -/
theorem processLine_preserves (sha256 : List Byte → List Byte) (line : List Byte) (h : P c) :
    P (processLine sha256 line c) := by
  have hheard : P (hear line c) := record_preserves hupdate _ h
  have hgreeting : ∀ greeting, P (update (fun h => { h with greeting := greeting }) (hear line c)) := fun greeting =>
    hupdate _ _ rfl hheard
  rw [processLine]
  split
  · rw [handleGreeting]
    split
    · exact hfail _ _ _ hheard
    · exact setState_preserves hupdate _ (hgreeting _)
  · rw [handleChallenge]
    split
    · exact hfail _ _ _ hheard
    · exact setState_preserves hupdate _ (sendLine_preserves hupdate hfail _ hheard)
  · obtain ⟨greeting, htake⟩ := takeSessionId_eq line (hear line c)
    rw [handleAuthResponse, htake]
    split
    · exact hfail _ _ _ (hgreeting _)
    · exact sendPendingSubscription_preserves hupdate hfail (setState_preserves hupdate _ (hgreeting _))
  · exact hheard
  · exact hheard

end Handshake

/-! ### The downstream -/

section Downstream

variable (sha256 : List Byte → List Byte) (R : Component CramAuth → Component CramAuth → Prop)
  (Start : Component CramAuth → Prop)

/-- A turn relates its ends as each act in it does. -/
theorem takeTurn_relates {act : Act → Component CramAuth → Component CramAuth}
    (hrefl : ∀ c, R c c) (htrans : ∀ a b c, R a b → R b c → R a c)
    (hstart : ∀ script c, Start c → R c (observe true (setScript script c)))
    (hobserve : ∀ c, R c (observe false c)) (hact : ∀ a c, R c (act a c)) {c : Component CramAuth}
    (h : Start c) : R c (takeTurn act c) := by
  have hfold : ∀ (acts : List Act) (d : Component CramAuth),
      R d (acts.foldl (fun d a => observe false (act a d)) d) := by
    intro acts
    induction acts with
    | nil => exact hrefl
    | cons a acts ih => exact fun d => htrans _ _ _ (htrans _ _ _ (hact a d) (hobserve _)) (ih _)
  exact htrans _ _ _ (hstart _ c h) (hfold _ _)

/-- **The rule of the downstream.**  A relation that holds across `Suspend`, `Resume`, a delivery and
consuming, around calls of the downstream across which it holds, holds across a call of the downstream. -/
theorem downstream_relates (hrefl : ∀ c, R c c) (htrans : ∀ a b c, R a b → R b c → R a c)
    (hstart : ∀ script c, Start c → R c (observe true (setScript script c)))
    (hobserve : ∀ c, R c (observe false c)) (hconsume : ∀ n c, R c (consume n c))
    (hsuspend : ∀ c : Component CramAuth, R c c.suspend)
    (hresume : ∀ deliver, (∀ c, Start c → R c (deliver c)) → ∀ c : Component CramAuth,
      c.suspended = true → R c (resume deliver c))
    (hdata : ∀ deliver, (∀ c, Start c → R c (deliver c)) → ∀ segments c,
      R c (arrive sha256 deliver segments c)) :
    ∀ depth {c : Component CramAuth}, Start c → R c (downstream sha256 depth c)
  | 0, _, h => by
    refine takeTurn_relates R Start hrefl htrans hstart hobserve (fun a d => ?_) h
    cases a with
    | consume n => exact hconsume _ _
    | suspend => exact hsuspend _
    | resume => exact hrefl _
    | data segments => exact hrefl _
  | depth + 1, _, h => by
    have hdeliver : ∀ c, Start c → R c (downstream sha256 depth c) := fun c hc =>
      downstream_relates hrefl htrans hstart hobserve hconsume hsuspend hresume hdata depth hc
    refine takeTurn_relates R Start hrefl htrans hstart hobserve (fun a d => ?_) h
    cases a with
    | consume n => exact hconsume _ _
    | suspend => exact hsuspend _
    | resume =>
      simp only
      split
      · rename_i hs
        exact hresume _ hdeliver d hs
      · exact hrefl _
    | data segments => exact hdata _ hdeliver segments d

/-- The rule for an invariant. -/
theorem downstream_preserves {P : Component CramAuth → Prop}
    (hscript : ∀ script c, P c → P (setScript script c))
    (hobserve : ∀ start c, P c → P (observe start c)) (hconsume : ∀ n c, P c → P (consume n c))
    (hsuspend : ∀ c : Component CramAuth, P c → P c.suspend)
    (hresume : ∀ deliver, (∀ c, P c → P (deliver c)) → ∀ c : Component CramAuth, P c →
      c.suspended = true → P (resume deliver c))
    (hdata : ∀ deliver, (∀ c, P c → P (deliver c)) → ∀ segments c, P c →
      P (arrive sha256 deliver segments c)) (depth : ℕ) {c : Component CramAuth} (h : P c) :
    P (downstream sha256 depth c) := by
  have hrel := downstream_relates sha256 (fun c c' => P c → P c') (fun _ => True) (fun _ h => h)
    (fun _ _ _ h1 h2 h => h2 (h1 h)) (fun script _ _ h => hobserve true _ (hscript script _ h))
    (fun c h => hobserve false c h) hconsume hsuspend
    (fun deliver hd c hs h => hresume deliver (fun c => hd c trivial) c h hs)
    (fun deliver hd segments c h => hdata deliver (fun c => hd c trivial) segments c h) depth (c := c) trivial
  exact hrel h

end Downstream

theorem wf_chainOf (segments : List Segment) : Chain.WF (chainOf segments) :=
  (Chain.appendAll_spec (Chain.wf_empty none) segments).1

theorem bytes_chainOf (segments : List Segment) :
    Chain.bytes (chainOf segments) = segments.flatMap Segment.bytes := by
  rw [chainOf, (Chain.appendAll_spec (Chain.wf_empty none) segments).2, Chain.bytes, BufferChain.bytes_nil,
    List.nil_append]

/-! ### Fixed inputs -/

/-- A text in one segment. -/
def textSegment (text : String) (h : (ascii text).length ≤ Segment.kSize := by decide) : Segment :=
  Segment.ofBytes (ascii text) h

/-- A text in one segment, delivered in one call. -/
def call (text : String) (h : (ascii text).length ≤ Segment.kSize := by decide) : Input :=
  .data [textSegment text h] []

/-- A digest of the right length. -/
def zeroDigest (_ : List Byte) : List Byte := List.replicate 32 0

end DbnPipe.Live
