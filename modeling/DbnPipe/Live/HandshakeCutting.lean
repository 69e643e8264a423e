import DbnPipe.Live.TextScan
import DbnPipe.Library.Runs

/-!
# The handshake under every cutting of the stream

A server that greets, challenges and accepts, followed by a binary tail, against a client that has asked for
a subscription and for the stream before any data.

* `Exchange` — such a stream, **with the facts that make it one as fields**: each line is one line, is not
  too long, and is accepted by the parser that meets it;
* `Expects` — a component that has taken the stream up to some byte, wherever the cuts were: the phase, the
  part of a line in the buffer, the lines written so far;
* `expects_byte`, `expects_scan`, `expects_onData` — a byte, the bytes of a call in the text phase, and a call
  in any phase lead from the one to the other;
* `handshake_cutting` — **every cutting ends as the whole stream in one call does**.
-/

namespace DbnPipe.Live

variable {sha256 : List Byte → List Byte}

/-! ### The exchange -/

/-- A stream of the three lines, without their newlines, and a tail.  `subscription` is what the client asks
for. -/
structure Exchange (sha256 : List Byte → List Byte) where
  apiKey : List Byte
  dataset : List Byte
  subscription : Subscription
  greetingLine : List Byte
  challengeLine : List Byte
  authLine : List Byte
  tail : List Byte
  greeting : Greeting
  challenge : List Byte
  greeting_line : 10 ∉ greetingLine
  challenge_line : 10 ∉ challengeLine
  auth_line : 10 ∉ authLine
  greeting_length : greetingLine.length + 1 ≤ kMaxLineLength
  challenge_length : challengeLine.length + 1 ≤ kMaxLineLength
  auth_length : authLine.length + 1 ≤ kMaxLineLength
  greeting_parsed : parseGreeting (content greetingLine) = some greeting
  challenge_parsed : parseChallenge (content challengeLine) = some challenge
  accepted : authFailure (content authLine) = none
  tail_length : tail.length ≤ kMaxPendingData
  request_fits : lineFits (formatAuthRequest (computeResponse sha256 challenge apiKey) dataset) = true
  subscription_fits : lineFits (subscriptionLine subscription 1) = true

namespace Exchange

variable (x : Exchange sha256)

/-- What follows the challenge line. -/
def afterChallenge : List Byte := x.authLine ++ 10 :: x.tail

/-- What follows the greeting line. -/
def afterGreeting : List Byte := x.challengeLine ++ 10 :: x.afterChallenge

/-- The whole stream. -/
def stream : List Byte := x.greetingLine ++ 10 :: x.afterGreeting

/-- The line that answers the challenge. -/
def request : List Byte := formatAuthRequest (computeResponse sha256 x.challenge x.apiKey) x.dataset

/-- The greeting, with the session id of the auth response if that has one. -/
def finalGreeting : Greeting :=
  match (parseAuthResponse (content x.authLine)).sessionId with
  | some id => { x.greeting with sessionId := id }
  | none => x.greeting

end Exchange

/-- The lines written upstream, in order. -/
def written (log : List Entry) : List (List Byte) :=
  log.filterMap fun e => match e.action with
    | .wrote line => some line
    | .heard _ _ | .refused _ | .state _ | .offered => none

/-- What a handshake leads to: the lines written, the state, the greeting, and the bytes that the downstream
consumed. -/
structure Result where
  written : List (List Byte)
  state : CramAuthState
  greeting : Greeting
  consumed : List Byte
deriving DecidableEq

/-- The result of a component. -/
def resultOf (c : Component CramAuth) : Result :=
  { written := written c.own.log
    state := c.own.state
    greeting := c.own.greeting
    consumed := c.own.consumed }

/-- The result of an exchange. -/
def Exchange.result (x : Exchange sha256) : Result :=
  { written := [x.request, subscriptionLine x.subscription 1, startSession]
    state := .streaming
    greeting := x.finalGreeting
    consumed := x.tail }

/-! ### A component along the stream -/

/-- Open, not suspended, nothing reported and nothing in the chains. -/
structure Calm (x : Exchange sha256) (c : Component CramAuth) : Prop where
  closed : c.closed = false
  finalized : c.finalized = false
  suspendCount : c.suspendCount = 0
  apiKey : c.own.apiKey = x.apiKey
  dataset : c.own.dataset = x.dataset
  script : c.own.script = []
  wfStreaming : Chain.WF c.own.streamingChain
  streaming : Chain.bytes c.own.streamingChain = []
  wfPending : Chain.WF c.own.pendingChain
  pending : Chain.bytes c.own.pendingChain = []

/-- The client has asked for the subscription and for the stream. -/
structure Asked (x : Exchange sha256) (c : Component CramAuth) : Prop where
  pending : c.own.pending = some x.subscription
  subscriptionSent : c.own.subscriptionSent = false
  startRequested : c.own.startRequested = true
  subCounter : c.own.subCounter = 0
  consumed : c.own.consumed = []

/-- The stream still to come, with what was done so far; `s` is the rest of a line whose first part is in the
buffer. -/
inductive Expects (x : Exchange sha256) (c : Component CramAuth) (r : List Byte) : Prop
  | greeting (s : List Byte) (state : c.own.state = .waitingGreeting)
      (line : x.greetingLine = c.own.lineBuffer ++ s) (rest : r = s ++ 10 :: x.afterGreeting)
      (written : written c.own.log = []) (asked : Asked x c)
  | challenge (s : List Byte) (state : c.own.state = .waitingChallenge)
      (line : x.challengeLine = c.own.lineBuffer ++ s) (rest : r = s ++ 10 :: x.afterChallenge)
      (written : written c.own.log = []) (asked : Asked x c) (greeted : c.own.greeting = x.greeting)
  | auth (s : List Byte) (state : c.own.state = .authenticating)
      (line : x.authLine = c.own.lineBuffer ++ s) (rest : r = s ++ 10 :: x.tail)
      (written : written c.own.log = [x.request]) (asked : Asked x c) (greeted : c.own.greeting = x.greeting)
  | streaming (state : c.own.state = .streaming) (consumed : c.own.consumed ++ r = x.tail)
      (written : written c.own.log = [x.request, subscriptionLine x.subscription 1, startSession])
      (greeted : c.own.greeting = x.finalGreeting)

variable {x : Exchange sha256} {c : Component CramAuth}

/-- A component changes in its own part, where the chains stay as they are. -/
theorem calm_update (f : CramAuth → CramAuth) (h : Calm x c) (hkey : (f c.own).apiKey = c.own.apiKey)
    (hset : (f c.own).dataset = c.own.dataset) (hscript : (f c.own).script = c.own.script)
    (hs : (f c.own).streamingChain = c.own.streamingChain)
    (hp : (f c.own).pendingChain = c.own.pendingChain) : Calm x (update f c) where
  closed := h.closed
  finalized := h.finalized
  suspendCount := h.suspendCount
  apiKey := hkey.trans h.apiKey
  dataset := hset.trans h.dataset
  script := hscript.trans h.script
  wfStreaming := by rw [update_own, hs]; exact h.wfStreaming
  streaming := by rw [update_own, hs]; exact h.streaming
  wfPending := by rw [update_own, hp]; exact h.wfPending
  pending := by rw [update_own, hp]; exact h.pending

theorem calm_hear (line : List Byte) (h : Calm x c) : Calm x (hear line c) := by
  rw [hear, record]
  exact calm_update _ h rfl rfl rfl rfl rfl

theorem calm_setState (s : CramAuthState) (h : Calm x c) : Calm x (setState s c) :=
  calm_update _ (calm_update _ h rfl rfl rfl rfl rfl) rfl rfl rfl rfl rfl

theorem sendLine_of_fits {line : List Byte} (h : lineFits line = true) (c : Component CramAuth) :
    sendLine line c = record (.wrote line) c := by
  rw [sendLine, if_pos h]

theorem written_append (log : List Entry) (e : Entry) :
    written (log ++ [e]) = written log ++ (match e.action with
      | .wrote line => [line]
      | .heard _ _ | .refused _ | .state _ | .offered => []) := by
  rw [written, List.filterMap_append, written]
  cases he : e.action <;> simp [he]

/-! ### A byte -/

/-- The next byte of a line goes into the buffer. -/
theorem expects_inLine {b : Byte} {line s r rest : List Byte} (hlen : line.length + 1 ≤ kMaxLineLength)
    (hline : line = c.own.lineBuffer ++ s)
    (hr : b :: r = s ++ 10 :: rest) (hb : b ≠ 10) :
    c.own.lineBuffer.length < kMaxLineLength ∧ byteStep sha256 b c = push b c ∧
      ∃ s', line = (push b c).own.lineBuffer ++ s' ∧ r = s' ++ 10 :: rest := by
  cases s with
  | nil => exact absurd (List.cons.inj hr).1 hb
  | cons d s =>
    obtain ⟨rfl, rfl⟩ := List.cons.inj hr
    refine ⟨?_, byteStep_of_ne sha256 hb c, s, ?_, rfl⟩
    · rw [hline, List.length_append] at hlen
      omega
    · rw [hline, push, update_own, List.append_assoc, List.singleton_append]

/-- The newline completes the line. -/
theorem expects_newline {line s r rest : List Byte} (hn : 10 ∉ line)
    (hlen : line.length + 1 ≤ kMaxLineLength)
    (hline : line = c.own.lineBuffer ++ s)
    (hr : 10 :: r = s ++ 10 :: rest) :
    c.own.lineBuffer.length < kMaxLineLength ∧ c.own.lineBuffer = line ∧ r = rest := by
  cases s with
  | nil =>
    rw [List.append_nil] at hline
    exact ⟨by rw [← hline]; omega, hline.symm, (List.cons.inj hr).2⟩
  | cons d s =>
    obtain ⟨rfl, -⟩ := List.cons.inj hr
    refine absurd ?_ hn
    rw [hline]
    simp

/-- The next byte of a line, in any phase. -/
theorem expects_push {b : Byte} {r : List Byte} (hc : Calm x c) (h : Expects x c (b :: r))
    (hs : c.own.state ≠ .streaming) (hb : b ≠ 10) :
    c.own.lineBuffer.length < kMaxLineLength ∧ Calm x (byteStep sha256 b c) ∧
      Expects x (byteStep sha256 b c) r := by
  have hcalm : Calm x (push b c) := calm_update _ hc rfl rfl rfl rfl rfl
  have hasked : Asked x c → Asked x (push b c) := fun ha =>
    ⟨ha.pending, ha.subscriptionSent, ha.startRequested, ha.subCounter, ha.consumed⟩
  cases h with
  | greeting s state line rest written asked =>
    obtain ⟨hlt, hstep, s', hline, hrest⟩ := expects_inLine x.greeting_length line rest hb
    rw [hstep]
    exact ⟨hlt, hcalm, .greeting s' state hline hrest written (hasked asked)⟩
  | challenge s state line rest written asked greeted =>
    obtain ⟨hlt, hstep, s', hline, hrest⟩ := expects_inLine x.challenge_length line rest hb
    rw [hstep]
    exact ⟨hlt, hcalm, .challenge s' state hline hrest written (hasked asked) greeted⟩
  | auth s state line rest written asked greeted =>
    obtain ⟨hlt, hstep, s', hline, hrest⟩ := expects_inLine x.auth_length line rest hb
    rw [hstep]
    exact ⟨hlt, hcalm, .auth s' state hline hrest written (hasked asked) greeted⟩
  | streaming state => exact absurd state hs

/-- The greeting line is complete. -/
theorem greeting_complete (hstate : c.own.state = .waitingGreeting) (hbuf : c.own.lineBuffer = x.greetingLine) :
    byteStep sha256 10 c =
      clearLine (setState .waitingChallenge (update (fun h => { h with greeting := x.greeting })
        (hear (content x.greetingLine) (push 10 c)))) := by
  have hstate' : (push 10 c).own.state = .waitingGreeting := hstate
  rw [byteStep_newline, processLine, hbuf, hstate']
  simp only [handleGreeting, x.greeting_parsed]

/-- The challenge line is complete: the request is written. -/
theorem challenge_complete (hc : Calm x c) (hstate : c.own.state = .waitingChallenge)
    (hbuf : c.own.lineBuffer = x.challengeLine) :
    byteStep sha256 10 c =
      clearLine (setState .authenticating (record (.wrote x.request)
        (hear (content x.challengeLine) (push 10 c)))) := by
  have hstate' : (push 10 c).own.state = .waitingChallenge := hstate
  have hkey : (hear (content x.challengeLine) (push 10 c)).own.apiKey = x.apiKey := hc.apiKey
  have hdataset : (hear (content x.challengeLine) (push 10 c)).own.dataset = x.dataset := hc.dataset
  rw [byteStep_newline, processLine, hbuf, hstate']
  simp only [handleChallenge, x.challenge_parsed, hkey, hdataset]
  exact congrArg (fun d => clearLine (setState .authenticating d)) (sendLine_of_fits x.request_fits _)

/-- An accepted auth response gives its session id, if it has one. -/
theorem takeSessionId_accepted {line : List Byte} (h : authFailure line = none) (c : Component CramAuth) :
    takeSessionId line c = update (fun h =>
      { h with greeting := match (parseAuthResponse line).sessionId with
          | some id => { h.greeting with sessionId := id }
          | none => h.greeting }) c := by
  have hprefix : ¬(ascii "err=").isPrefixOf line := by
    intro hp
    rw [authFailure, if_pos hp] at h
    simp at h
  simp only [takeSessionId, if_neg hprefix]
  cases (parseAuthResponse line).sessionId <;> rfl

/-- The auth line is complete: the subscription and the start are written, and the stream begins. -/
theorem auth_complete (ha : Asked x c) (hgreeted : c.own.greeting = x.greeting)
    (hstate : c.own.state = .authenticating) (hbuf : c.own.lineBuffer = x.authLine) :
    byteStep sha256 10 c =
      clearLine (setState .streaming (record (.wrote startSession) (markSent
        (record (.wrote (subscriptionLine x.subscription 1)) (countSubscription (setState .ready
          (update (fun h => { h with greeting := x.finalGreeting })
            (hear (content x.authLine) (push 10 c))))))))) := by
  have hstate' : (push 10 c).own.state = .authenticating := hstate
  have hgreeted' : (hear (content x.authLine) (push 10 c)).own.greeting = x.greeting := hgreeted
  have htake : takeSessionId (content x.authLine) (hear (content x.authLine) (push 10 c)) =
      update (fun h => { h with greeting := x.finalGreeting }) (hear (content x.authLine) (push 10 c)) := by
    rw [takeSessionId_accepted x.accepted, update, update, Exchange.finalGreeting, hgreeted']
  have hnext : nextSubscription (setState .ready (update (fun h => { h with greeting := x.finalGreeting })
      (hear (content x.authLine) (push 10 c)))).own = some (subscriptionLine x.subscription 1) := by
    simp [nextSubscription, setState, hear, record, push, ha.subscriptionSent, ha.pending, ha.subCounter]
  have hstart : (setState .ready (update (fun h => { h with greeting := x.finalGreeting })
      (hear (content x.authLine) (push 10 c)))).own.startRequested = true := ha.startRequested
  rw [byteStep_newline, processLine, hbuf, hstate']
  simp only [handleAuthResponse, x.accepted, htake, sendPendingSubscription_eq, hnext, hstart, if_true, begin_eq,
    sendLine_of_fits x.subscription_fits]

/-- **The newline of a line** leads to the next phase. -/
theorem expects_complete {r : List Byte} (hc : Calm x c) (h : Expects x c (10 :: r))
    (hs : c.own.state ≠ .streaming) :
    c.own.lineBuffer.length < kMaxLineLength ∧ Calm x (byteStep sha256 10 c) ∧
      Expects x (byteStep sha256 10 c) r := by
  have hheard : ∀ line, Calm x (hear line (push 10 c)) := fun line =>
    calm_hear line (calm_update _ hc rfl rfl rfl rfl rfl)
  cases h with
  | greeting s state line rest hw asked =>
    obtain ⟨hlt, hbuf, rfl⟩ := expects_newline x.greeting_line x.greeting_length line rest
    rw [greeting_complete state hbuf]
    refine ⟨hlt, ?_, .challenge x.challengeLine rfl rfl rfl ?_ ?_ rfl⟩
    · exact calm_update _ (calm_setState _ (calm_update _ (hheard _) rfl rfl rfl rfl rfl)) rfl rfl rfl rfl rfl
    · simp only [clearLine, setState, hear, record, push, update_own, written_append, hw, List.append_nil]
    · exact ⟨asked.pending, asked.subscriptionSent, asked.startRequested, asked.subCounter, asked.consumed⟩
  | challenge s state line rest hw asked greeted =>
    obtain ⟨hlt, hbuf, rfl⟩ := expects_newline x.challenge_line x.challenge_length line rest
    rw [challenge_complete hc state hbuf]
    refine ⟨hlt, ?_, .auth x.authLine rfl rfl rfl ?_ ?_ greeted⟩
    · exact calm_update _ (calm_setState _ (calm_update _ (hheard _) rfl rfl rfl rfl rfl)) rfl rfl rfl rfl rfl
    · simp only [clearLine, setState, hear, record, push, update_own, written_append, hw, List.append_nil,
        List.nil_append]
    · exact ⟨asked.pending, asked.subscriptionSent, asked.startRequested, asked.subCounter, asked.consumed⟩
  | auth s state line rest hw asked greeted =>
    obtain ⟨hlt, hbuf, rfl⟩ := expects_newline x.auth_line x.auth_length line rest
    rw [auth_complete asked greeted state hbuf]
    refine ⟨hlt, ?_, .streaming rfl ?_ ?_ rfl⟩
    · refine calm_update _ (calm_setState _ (calm_update _ (calm_update _ (calm_update _ ?_
        rfl rfl rfl rfl rfl) rfl rfl rfl rfl rfl) rfl rfl rfl rfl rfl)) rfl rfl rfl rfl rfl
      exact calm_update _ (calm_setState _ (calm_update _ (hheard _) rfl rfl rfl rfl rfl)) rfl rfl rfl rfl rfl
    · simp only [clearLine, setState, hear, record, markSent, countSubscription, push, update_own, asked.consumed,
        List.nil_append]
    · simp only [clearLine, setState, hear, record, markSent, countSubscription, push, update_own, written_append,
        hw, List.append_nil, List.cons_append, List.nil_append]
  | streaming state => exact absurd state hs

/-- A byte of the text phase. -/
theorem expects_byte {b : Byte} {r : List Byte} (hc : Calm x c) (h : Expects x c (b :: r))
    (hs : c.own.state ≠ .streaming) :
    c.own.lineBuffer.length < kMaxLineLength ∧ Calm x (byteStep sha256 b c) ∧
      Expects x (byteStep sha256 b c) r := by
  by_cases hb : b = 10
  · subst hb
    exact expects_complete hc h hs
  · exact expects_push hc h hs hb

/-! ### The bytes of a call -/

/-- The bytes of a call in the text phase: no line is too long, and the stream may begin behind some of them. -/
theorem expects_scan {bs r : List Byte} (hc : Calm x c) (h : Expects x c (bs ++ r))
    (hs : c.own.state ≠ .streaming) :
    Calm x (scan sha256 bs c).1 ∧
      match (scan sha256 bs c).2 with
      | .more => Expects x (scan sha256 bs c).1 r
      | .overflow => False
      | .streaming rest => Expects x (scan sha256 bs c).1 (rest ++ r) := by
  induction bs generalizing c with
  | nil => exact ⟨hc, h⟩
  | cons b bs ih =>
    obtain ⟨hlt, hcalm, hnext⟩ := expects_byte hc h hs
    rw [scan, if_neg (by omega)]
    simp only
    by_cases hswitch : b = 10 ∧ (byteStep sha256 b c).own.state = .streaming
    · rw [if_pos hswitch]
      exact ⟨hcalm, hnext⟩
    · rw [if_neg hswitch]
      refine ih hcalm hnext fun he => hswitch ⟨?_, he⟩
      by_contra hb
      rw [byteStep_of_ne sha256 hb] at he
      exact hs he

/-- The binary bytes that are left never overflow a chain. -/
theorem tail_fits {r d : List Byte} (h : Expects x c (d ++ r)) (hs : c.own.state = .streaming) :
    d.length ≤ kMaxPendingData ∧ c.own.consumed ++ (d ++ r) = x.tail := by
  cases h with
  | greeting _ state => rw [hs] at state; simp at state
  | challenge _ state => rw [hs] at state; simp at state
  | auth _ state => rw [hs] at state; simp at state
  | streaming _ consumed =>
    have hlen := congrArg List.length consumed
    have htail := x.tail_length
    simp only [List.length_append] at hlen
    exact ⟨by omega, consumed⟩

theorem not_wouldOverflow {target source : Chain} (ht : Chain.WF target) (hnil : Chain.bytes target = [])
    (hs : Chain.WF source) (hle : (Chain.bytes source).length ≤ kMaxPendingData) :
    target.wouldOverflow source.size kMaxPendingData = false := by
  have hzero : target.totalSize = 0 := by rw [Chain.totalSize_eq ht, hnil, List.length_nil]
  rw [BufferChain.wouldOverflow, hzero, sizeSub_of_le (Nat.zero_le _), Chain.size_eq hs]
  exact decide_eq_false (by omega)

/-- The downstream consumes all it is offered. -/
theorem downstream_all (depth : ℕ) (h : c.own.script = []) :
    downstream sha256 depth c =
      observe false (consume c.own.streamingChain.size (observe true (setScript [] c))) := by
  cases depth <;> simp [downstream, takeTurn, h, setScript, update, observe]

/-- Splicing into an empty chain what fits. -/
theorem toStreaming_fits (hc : Calm x c) {data : Chain} (hwf : Chain.WF data)
    (hle : (Chain.bytes data).length ≤ kMaxPendingData) :
    ∃ chain rest, Chain.WF chain ∧ Chain.bytes chain = Chain.bytes data ∧
      toStreaming data c = (update (fun h => { h with streamingChain := chain }) c, rest, true) := by
  cases he : data.empty with
  | true =>
    refine ⟨c.own.streamingChain, data, hc.wfStreaming, ?_, ?_⟩
    · rw [hc.streaming, (Chain.empty_iff hwf).mp he]
    · rw [toStreaming, spliceChecked, if_pos he]
      rfl
  | false =>
    obtain ⟨h1, h2, -, -⟩ := Chain.compactAndSplice_spec hc.wfStreaming hwf
    refine ⟨_, (Chain.compactAndSplice c.own.streamingChain data).2, h1, ?_, ?_⟩
    · rw [h2, hc.streaming, List.nil_append]
    · rw [toStreaming, spliceChecked, he, not_wouldOverflow hc.wfStreaming hc.streaming hwf hle]
      rfl

/-- What is in the streaming chain is offered and consumed. -/
theorem offer_all (sha256 : List Byte → List Byte) (depth : ℕ) {chain : Chain} (hchain : Chain.WF chain)
    (h : c.own.script = []) :
    ∃ moments, offer (downstream sha256 depth) (update (fun h => { h with streamingChain := chain }) c) =
      update (fun h =>
        { h with
          streamingChain := chain.consume id chain.size
          consumed := h.consumed ++ Chain.bytes chain
          offers := h.offers + 1
          log := h.log ++ [⟨failed c, .offered⟩]
          script := []
          moments := moments }) c := by
  have htake : (Chain.bytes chain).take chain.size = Chain.bytes chain := by
    rw [Chain.size_eq hchain, List.take_length]
  rw [offer, downstream_all depth (by exact h)]
  simp only [consume, setScript, record, observe, update, htake, Nat.min_self]
  exact ⟨_, rfl⟩

/-- **Binary bytes** go through the streaming chain to the downstream. -/
theorem expects_onBinaryData (depth : ℕ) {data : Chain} (hwf : Chain.WF data) {r : List Byte} (hc : Calm x c)
    (h : Expects x c (Chain.bytes data ++ r)) (hs : c.own.state = .streaming) :
    Calm x (onBinaryData (downstream sha256 depth) data c).1 ∧
      Expects x (onBinaryData (downstream sha256 depth) data c).1 r := by
  obtain ⟨hle, hconsumed⟩ := tail_fits h hs
  have hp : c.own.pendingChain.empty = true := (Chain.empty_iff hc.wfPending).mpr hc.pending
  have hsus : c.suspended = false := (Component.not_suspended_iff _).mpr hc.suspendCount
  obtain ⟨chain, rest, hchain, hbytes, hsplice⟩ := toStreaming_fits hc hwf hle
  have hnil : Chain.bytes (chain.consume id chain.size) = [] := by
    rw [Chain.bytes_consumed hchain, Chain.size_eq hchain, List.drop_length]
  obtain ⟨moments, hoffer⟩ := offer_all sha256 depth hchain hc.script
  simp only [onBinaryData, hsus, Bool.false_eq_true, if_false, forwardBinaryData, splicePending_of_empty hp,
    Bool.not_true, hsplice, if_true, hoffer]
  refine ⟨⟨hc.closed, hc.finalized, hc.suspendCount, hc.apiKey, hc.dataset, rfl, Chain.wf_consumed hchain _,
    hnil, hc.wfPending, hc.pending⟩, ?_⟩
  cases h with
  | greeting _ state => rw [hs] at state; simp at state
  | challenge _ state => rw [hs] at state; simp at state
  | auth _ state => rw [hs] at state; simp at state
  | streaming _ _ hw greeted =>
    refine .streaming hs ?_ ?_ greeted
    · rw [update_own, hbytes, List.append_assoc]
      exact hconsumed
    · simp only [update_own, written_append, hw, List.append_nil]

/-! ### Calls -/

/-- The guard of a call does not matter. -/
theorem expects_of_own {d : Component CramAuth} {r : List Byte} (h : Expects x c r) (hown : d.own = c.own) :
    Expects x d r := by
  cases h with
  | greeting s state line rest written asked =>
    obtain ⟨h1, h2, h3, h4, h5⟩ := asked
    rw [← hown] at state line written h1 h2 h3 h4 h5
    exact .greeting s state line rest written ⟨h1, h2, h3, h4, h5⟩
  | challenge s state line rest written asked greeted =>
    obtain ⟨h1, h2, h3, h4, h5⟩ := asked
    rw [← hown] at state line written greeted h1 h2 h3 h4 h5
    exact .challenge s state line rest written ⟨h1, h2, h3, h4, h5⟩ greeted
  | auth s state line rest written asked greeted =>
    obtain ⟨h1, h2, h3, h4, h5⟩ := asked
    rw [← hown] at state line written greeted h1 h2 h3 h4 h5
    exact .auth s state line rest written ⟨h1, h2, h3, h4, h5⟩ greeted
  | streaming state consumed written greeted =>
    rw [← hown] at state consumed written greeted
    exact .streaming state consumed written greeted

theorem calm_leave (h : Calm x c) : Calm x c.leave := by
  have hown := c.leave_own
  refine ⟨?_, ?_, ?_, ?_, ?_, ?_, ?_, ?_, ?_, ?_⟩
  · rw [Component.leave_closed, h.closed]
  · rw [Component.leave_finalized, h.finalized]
  · rw [Component.leave_suspendCount, h.suspendCount]
  all_goals rw [hown]
  · exact h.apiKey
  · exact h.dataset
  · exact h.script
  · exact h.wfStreaming
  · exact h.streaming
  · exact h.wfPending
  · exact h.pending

/-- The buffer holds the beginning of a line. -/
theorem expects_lineBuffer {r : List Byte} (h : Expects x c r) (hs : c.own.state ≠ .streaming) :
    10 ∉ c.own.lineBuffer := by
  cases h with
  | greeting s _ line =>
    have hn := x.greeting_line
    rw [line] at hn
    exact fun hm => hn (List.mem_append_left _ hm)
  | challenge s _ line =>
    have hn := x.challenge_line
    rw [line] at hn
    exact fun hm => hn (List.mem_append_left _ hm)
  | auth s _ line =>
    have hn := x.auth_line
    rw [line] at hn
    exact fun hm => hn (List.mem_append_left _ hm)
  | streaming state => exact absurd state hs

/-- **A call of the socket**, wherever in the stream it ends. -/
theorem expects_onData (depth : ℕ) (segments : List Segment) {r : List Byte} (hc : Calm x c)
    (h : Expects x c (segments.flatMap Segment.bytes ++ r)) :
    Calm x (onData (downstream sha256 depth) sha256 (chainOf segments) c).1 ∧
      Expects x (onData (downstream sha256 depth) sha256 (chainOf segments) c).1 r := by
  have henter : Calm x c.enter := ⟨hc.closed, hc.finalized, hc.suspendCount, hc.apiKey, hc.dataset, hc.script,
    hc.wfStreaming, hc.streaming, hc.wfPending, hc.pending⟩
  have hwf := wf_chainOf segments
  rw [← bytes_chainOf] at h
  rw [onData, hc.closed]
  simp only [Bool.false_eq_true, if_false]
  have hdone : ∀ d : Component CramAuth, Calm x d → Expects x d r → Calm x d.leave ∧ Expects x d.leave r :=
    fun d hd he => ⟨calm_leave hd, expects_of_own he d.leave_own⟩
  by_cases hs : c.own.state = .streaming
  · rw [if_pos hs]
    obtain ⟨h1, h2⟩ := expects_onBinaryData depth hwf henter (expects_of_own h rfl) hs
    exact hdone _ h1 h2
  · rw [if_neg hs, onTextData]
    have hbegin : Expects x c.enter (Chain.bytes (chainOf segments) ++ r) := expects_of_own h rfl
    have hloop := textLoop_scan sha256 (downstream sha256 depth) hwf (Nat.le_refl _)
      (expects_lineBuffer hbegin hs)
    obtain ⟨hcalm, hend⟩ := expects_scan henter hbegin hs
    cases hscan : scan sha256 (Chain.bytes (chainOf segments)) c.enter with
    | mk c' e =>
      rw [hscan] at hloop hcalm hend
      cases e with
      | more =>
        rw [hloop]
        exact hdone _ hcalm hend
      | overflow => exact absurd hend not_false
      | streaming rest =>
        obtain ⟨data, hdata, hbytes, hrest⟩ := hloop
        rw [hrest, handleRemainingData]
        split
        · rename_i he
          rw [(Chain.empty_iff hdata).mp he] at hbytes
          subst hbytes
          exact hdone _ hcalm hend
        · subst hbytes
          obtain ⟨h1, h2⟩ := expects_onBinaryData depth hdata hcalm hend (scan_streaming sha256 hscan)
          exact hdone _ h1 h2

/-- What is received does not matter. -/
theorem expects_receive (bytes : List Byte) {r : List Byte} (h : Expects x c r) : Expects x (receive bytes c) r := by
  cases h with
  | greeting s state line rest written asked =>
    obtain ⟨h1, h2, h3, h4, h5⟩ := asked
    exact .greeting s state line rest written ⟨h1, h2, h3, h4, h5⟩
  | challenge s state line rest written asked greeted =>
    obtain ⟨h1, h2, h3, h4, h5⟩ := asked
    exact .challenge s state line rest written ⟨h1, h2, h3, h4, h5⟩ greeted
  | auth s state line rest written asked greeted =>
    obtain ⟨h1, h2, h3, h4, h5⟩ := asked
    exact .auth s state line rest written ⟨h1, h2, h3, h4, h5⟩ greeted
  | streaming state consumed written greeted => exact .streaming state consumed written greeted

theorem expects_arrive (depth : ℕ) (segments : List Segment) {r : List Byte} (hc : Calm x c)
    (h : Expects x c (segments.flatMap Segment.bytes ++ r)) :
    Calm x (arrive sha256 (downstream sha256 depth) segments c) ∧
      Expects x (arrive sha256 (downstream sha256 depth) segments c) r :=
  expects_onData depth segments (calm_update _ hc rfl rfl rfl rfl rfl) (expects_receive _ h)

/-! ### Runs -/

/-- A delivery to which the downstream answers by consuming all it is offered. -/
def delivery (segments : List Segment) : Input := .data segments []

/-- The deliveries of a stream, however it is cut. -/
theorem expects_run (depth : ℕ) (cuts : List (List Segment)) (hc : Calm x c)
    (h : Expects x c (cuts.flatMap fun segments => segments.flatMap Segment.bytes)) :
    Calm x (Runs.run (step sha256 depth) c (cuts.map delivery)) ∧
      Expects x (Runs.run (step sha256 depth) c (cuts.map delivery)) [] := by
  induction cuts generalizing c with
  | nil => exact ⟨hc, h⟩
  | cons segments cuts ih =>
    have hset : Calm x (setScript [] c) := ⟨hc.closed, hc.finalized, hc.suspendCount, hc.apiKey, hc.dataset,
      rfl, hc.wfStreaming, hc.streaming, hc.wfPending, hc.pending⟩
    have hscript : (setScript [] c).own = c.own := by
      rw [setScript, update_own, ← hc.script]
    obtain ⟨h1, h2⟩ := expects_arrive depth segments hset (expects_of_own h hscript)
    exact ih h1 h2

/-- The subscription that a client has asked for last, and whether it has asked for the stream. -/
def asked : List Input → Option Subscription × Bool
  | [] => (none, false)
  | .subscribe p :: calls =>
    let r := asked calls
    (r.1 <|> some { p with start := p.start.filter fun start => !start.isEmpty }, r.2)
  | .startStreaming :: calls => ((asked calls).1, true)
  | _ :: calls => asked calls

/-- The calls of a client. -/
def Input.isCall : Input → Bool
  | .subscribe _ | .startStreaming => true
  | _ => false

/-- Before any data the calls are only remembered. -/
theorem run_calls (depth : ℕ) {calls : List Input} (hcalls : ∀ i ∈ calls, i.isCall = true)
    (hs : c.own.state = .waitingGreeting) (hsent : c.own.subscriptionSent = false) :
    Runs.run (step sha256 depth) c calls =
      update (fun h =>
        { h with
          pending := (asked calls).1 <|> h.pending
          startRequested := (asked calls).2 || h.startRequested }) c := by
  induction calls generalizing c with
  | nil => simp [asked, update]
  | cons i calls ih =>
    have hrest : ∀ j ∈ calls, j.isCall = true := fun j hj => hcalls j (List.mem_cons_of_mem _ hj)
    cases i with
    | subscribe p =>
      have hstep : step sha256 depth c (.subscribe p) = queue p c := by
        rw [step, subscribe_eq, if_neg (by simp [hs])]
      rw [Runs.run_cons, hstep, ih (c := queue p c) hrest hs rfl]
      cases hq : (asked calls).1 <;> simp [asked, hq, queue, update, hsent]
    | startStreaming =>
      have hstep : step sha256 depth c .startStreaming = requestStart c := by
        rw [step, startStreaming_eq, if_neg (by simp [hs])]
      rw [Runs.run_cons, hstep, ih (c := requestStart c) hrest hs hsent]
      simp [asked, requestStart, update]
    | data | done | error | suspend | resume | requestClose | runClose =>
      exact absurd (hcalls _ List.mem_cons_self) (by simp [Input.isCall])

/-- **The handshake does not depend on the cutting**: a client that has asked for a subscription and for the
stream writes the request, the subscription and the start, takes over the greeting, and hands the downstream
exactly the tail, as it does when the whole stream arrives in one call. -/
theorem handshake_cutting (x : Exchange sha256) (depth : ℕ) (calls : List Input)
    (hcalls : ∀ i ∈ calls, i.isCall = true) (hasked : asked calls = (some x.subscription, true))
    (cuts : List (List Segment))
    (hcuts : (cuts.flatMap fun segments => segments.flatMap Segment.bytes) = x.stream)
    (whole : List Segment) (hwhole : whole.flatMap Segment.bytes = x.stream) :
    let run := Runs.run (step sha256 depth) (newCramAuth x.apiKey x.dataset)
    resultOf (run (calls ++ cuts.map delivery)) = x.result ∧
      resultOf (run (calls ++ cuts.map delivery)) = resultOf (run (calls ++ [delivery whole])) := by
  have hresult : ∀ cuts : List (List Segment),
      (cuts.flatMap fun segments => segments.flatMap Segment.bytes) = x.stream →
      resultOf (Runs.run (step sha256 depth) (newCramAuth x.apiKey x.dataset) (calls ++ cuts.map delivery)) =
        x.result := by
    intro cuts hcuts
    rw [Runs.run_append, run_calls depth hcalls rfl rfl, hasked]
    have hcalm : Calm x (update (fun h =>
        { h with
          pending := (some x.subscription, true).1 <|> h.pending
          startRequested := (some x.subscription, true).2 || h.startRequested })
        (newCramAuth x.apiKey x.dataset)) :=
      ⟨rfl, rfl, rfl, rfl, rfl, rfl, Chain.wf_empty none, BufferChain.bytes_nil id none,
        Chain.wf_empty none, BufferChain.bytes_nil id none⟩
    have hbegin : Expects x (update (fun h =>
        { h with
          pending := (some x.subscription, true).1 <|> h.pending
          startRequested := (some x.subscription, true).2 || h.startRequested })
        (newCramAuth x.apiKey x.dataset)) x.stream :=
      .greeting x.greetingLine rfl rfl rfl rfl ⟨rfl, rfl, rfl, rfl, rfl⟩
    rw [← hcuts] at hbegin
    obtain ⟨-, hend⟩ := expects_run depth cuts hcalm hbegin
    cases hend with
    | greeting s _ _ rest => simp at rest
    | challenge s _ _ rest => simp at rest
    | auth s _ _ rest => simp at rest
    | streaming state consumed written greeted =>
      rw [List.append_nil] at consumed
      rw [resultOf, written, state, greeted, consumed, Exchange.result]
  refine ⟨hresult cuts hcuts, ?_⟩
  rw [hresult cuts hcuts]
  have hone := hresult [whole] (by rw [List.flatMap_cons, List.flatMap_nil, List.append_nil, hwhole])
  exact hone.symm

/-- A stream with both line endings, whose tail has a newline of its own. -/
def sampleExchange : Exchange zeroDigest where
  apiKey := ascii "db-key"
  dataset := ascii "XNAS.ITCH"
  subscription := { symbols := ascii "SPY", schema := ascii "trades", stypeIn := ascii "raw_symbol" }
  greetingLine := ascii "lsg|0.1"
  challengeLine := ascii "cram=a\r"
  authLine := ascii "success=1|session_id=7|"
  tail := ascii "DBN\ncram=b\n"
  greeting := { sessionId := ascii "lsg", version := ascii "0.1" }
  challenge := ascii "a"
  greeting_line := by decide
  challenge_line := by decide
  auth_line := by decide
  greeting_length := by decide
  challenge_length := by decide
  auth_length := by decide
  greeting_parsed := by decide
  challenge_parsed := by decide
  accepted := by decide
  tail_length := by decide
  request_fits := by decide +kernel
  subscription_fits := by decide +kernel

/-- Cut inside lines, behind a carriage return, and inside the tail. -/
theorem handshake_cutting_sample :
    resultOf (Runs.run (step zeroDigest 0) (newCramAuth (ascii "db-key") (ascii "XNAS.ITCH"))
      ([.startStreaming, .subscribe sampleExchange.subscription] ++
        [[textSegment "lsg|0."], [textSegment "1\ncr", textSegment "am=a\r"],
          [textSegment "\nsuccess=1|session_id=7|\nDBN\ncra"], [textSegment "m=b\n"]].map delivery)) =
      sampleExchange.result :=
  (handshake_cutting sampleExchange 0 [.startStreaming, .subscribe sampleExchange.subscription]
    (by decide) (by decide)
    [[textSegment "lsg|0."], [textSegment "1\ncr", textSegment "am=a\r"],
      [textSegment "\nsuccess=1|session_id=7|\nDBN\ncra"], [textSegment "m=b\n"]]
    (by decide)
    [textSegment "lsg|0.1\ncram=a\r\nsuccess=1|session_id=7|\nDBN\ncram=b\n"] (by decide)).1

end DbnPipe.Live
