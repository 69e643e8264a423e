import DbnPipe.Live.CommandOrder

/-!
# Subscriptions and their calls

Which calls of `Subscribe` lead to a line, and **which are lost**.

* `subscribed` — the subscription lines written; `expected` — one for each call, in call order, numbered from 1;
* `Timely` — the condition on a call: **nothing is waiting, the stream has not begun**, the line fits and its number
  does not wrap;
* `Kept` — after timely calls every line is written, or the one call so far waits for the handshake;
* `Off` — after one that is not, the lines are behind the calls, or one of them is wrong, **for good**;
* `subscribed_iff` — once the handshake is over, each call has its line exactly where all were timely.
-/

namespace DbnPipe.Live

variable (sha256 : List Byte → List Byte)

/-! ### Lines and calls -/

/-- The line of an action that subscribes. -/
def subscriptionOf : Action → Option (List Byte)
  | .wrote line => if IsSubscription line then some line else none
  | .heard _ _ | .refused _ | .state _ | .offered => none

/-- The subscription lines written so far. -/
def subscribed (h : CramAuth) : List (List Byte) := (actions h).filterMap subscriptionOf

/-- The parameters of a call; an empty start is none. -/
def given (p : Subscription) : Subscription := { p with start := p.start.filter fun start => !start.isEmpty }

/-- A line for each call, in call order, numbered from 1. -/
def expected (ps : List Subscription) : List (List Byte) := ps.mapIdx fun i p => subscriptionLine (given p) (i + 1)

/-- The call of `Subscribe` that an input is. -/
def Input.subscription : Input → Option Subscription
  | .subscribe p => some p
  | _ => none

/-- The calls of `Subscribe` in a run. -/
def subscriptions (inputs : List Input) : List Subscription := inputs.filterMap Input.subscription

/-- **A timely call**: no other one waits for the handshake, the stream has not begun, and the line fits. -/
def Timely (p : Subscription) (h : CramAuth) : Prop :=
  h.state ≠ .streaming ∧ (h.state = .ready ∨ h.pending = none) ∧ h.subCounter + 1 < 2 ^ 32 ∧
    lineFits (subscriptionLine (given p) (h.subCounter + 1)) = true

instance (p : Subscription) (h : CramAuth) : Decidable (Timely p h) := inferInstanceAs (Decidable (_ ∧ _))

/-- Calls of `Subscribe` are timely. -/
def Careful (c : Component CramAuth) : Input → Prop
  | .subscribe p => Timely p c.own
  | .data .. | .startStreaming | .done _ | .error _ | .suspend | .resume _ | .requestClose | .runClose => True

instance (c : Component CramAuth) : ∀ i, Decidable (Careful c i)
  | .subscribe p => inferInstanceAs (Decidable (Timely p c.own))
  | .data .. | .startStreaming | .done _ | .error _ | .suspend | .resume _ | .requestClose | .runClose =>
    inferInstanceAs (Decidable True)

/-! ### What is written -/

variable {sha256} {h h' : CramAuth} {c : Component CramAuth}

theorem subscribed_append {acts : List Action} (hacts : actions h' = actions h ++ acts) :
    subscribed h' = subscribed h ++ acts.filterMap subscriptionOf := by
  rw [subscribed, hacts, List.filterMap_append, subscribed]

theorem subscribed_setState (s : CramAuthState) (c : Component CramAuth) :
    subscribed (setState s c).own = subscribed c.own := by
  rw [subscribed_append (actions_setState s c)]
  exact List.append_nil _

/-- A subscription is written where it fits. -/
theorem subscribed_sendLine {line : List Byte} (hline : IsSubscription line) (c : Component CramAuth) :
    subscribed (sendLine line c).own = subscribed c.own ++ if lineFits line then [line] else [] := by
  rw [subscribed_append (actions_sendLine line c)]
  split
  · rw [List.filterMap_cons, List.filterMap_nil, subscriptionOf, if_pos hline]
  · rfl

/-- Another line is no subscription. -/
theorem subscribed_sendLine_of_not {line : List Byte} (hline : ¬IsSubscription line) (c : Component CramAuth) :
    subscribed (sendLine line c).own = subscribed c.own := by
  rw [subscribed_append (actions_sendLine line c)]
  split
  · rw [List.filterMap_cons, List.filterMap_nil, subscriptionOf, if_neg hline]
    exact List.append_nil _
  · exact List.append_nil _

theorem subscribed_begin (c : Component CramAuth) : subscribed (begin c).own = subscribed c.own := by
  rw [begin, subscribed_setState, subscribed_sendLine_of_not not_isSubscription_startSession]

/-- The stream writes none. -/
theorem Aside.subscribed {d : Component CramAuth} (h : Aside c d) : subscribed d.own = subscribed c.own := by
  obtain ⟨more, hmore, hall⟩ := h.offers
  rw [subscribed_append hmore, List.filterMap_eq_nil_iff.mpr, List.append_nil]
  intro a ha
  rw [hall a ha]
  rfl

theorem sendLine_own (line : List Byte) (c : Component CramAuth) :
    ∃ log, (sendLine line c).own = { c.own with log := log } := by
  rw [sendLine]
  split
  · exact ⟨_, rfl⟩
  · exact ⟨_, fail_own _ _ _⟩

@[simp] theorem subscribed_markSent (c : Component CramAuth) : subscribed (markSent c).own = subscribed c.own := rfl

@[simp] theorem subscribed_countSubscription (c : Component CramAuth) :
    subscribed (countSubscription c).own = subscribed c.own := rfl

@[simp] theorem subscribed_queue (p : Subscription) (c : Component CramAuth) :
    subscribed (queue p c).own = subscribed c.own := rfl

/-- **`SendPendingSubscription`** where one is pending: it takes the next number and leaves nothing waiting. -/
theorem sendPendingSubscription_spec {p : Subscription} {id : ℕ} (hp : c.own.pending = some p)
    (hsent : c.own.subscriptionSent = false) (hstate : c.own.state = .ready)
    (hid : (c.own.subCounter + 1) % 2 ^ 32 = id) :
    subscribed (sendPendingSubscription c).own =
        subscribed c.own ++ (if lineFits (subscriptionLine p id) then [subscriptionLine p id] else []) ∧
      (sendPendingSubscription c).own.subCounter = id ∧
      nextSubscription (sendPendingSubscription c).own = none ∧
      ((sendPendingSubscription c).own.state = .ready ∨ (sendPendingSubscription c).own.state = .streaming) := by
  have hnext : nextSubscription c.own = some (subscriptionLine p id) := by
    rw [nextSubscription, hsent, hp, ← hid]
    rfl
  have hline := isSubscription_line p id
  generalize subscriptionLine p id = line at hnext hline
  have hsend := sendPendingSubscription_eq c
  rw [hnext] at hsend
  simp only at hsend
  have hwritten : subscribed (markSent (sendLine line (countSubscription c))).own =
      subscribed c.own ++ if lineFits line then [line] else [] := by
    rw [subscribed_markSent, subscribed_sendLine hline, subscribed_countSubscription]
  obtain ⟨log, hown⟩ := sendLine_own line (countSubscription c)
  have hmarked : (markSent (sendLine line (countSubscription c))).own =
      { (countSubscription c).own with subscriptionSent := true, log := log } := by
    rw [markSent, update_own, hown]
  have hcounter : (markSent (sendLine line (countSubscription c))).own.subCounter = id := by
    rw [hmarked, countSubscription, update_own, ← hid]
  have hready : (markSent (sendLine line (countSubscription c))).own.state = .ready := by
    rw [hmarked, countSubscription, update_own]
    exact hstate
  have hnone : nextSubscription (markSent (sendLine line (countSubscription c))).own = none := if_pos rfl
  generalize markSent (sendLine line (countSubscription c)) = d at *
  rw [hsend]
  split
  · obtain ⟨log', hbegin⟩ := sendLine_own startSession d
    have hsame : (begin d).own.subCounter = d.own.subCounter ∧
        nextSubscription (begin d).own = nextSubscription d.own := by
      rw [begin, setState, update_own, record, update_own, hbegin]
      exact ⟨rfl, rfl⟩
    exact ⟨(subscribed_begin d).trans hwritten, hsame.1.trans hcounter, hsame.2.trans hnone, Or.inr rfl⟩
  · exact ⟨hwritten, hcounter, hnone, Or.inl hready⟩

/-! ### A line of the server -/

/-- The handshake is not over. -/
def Unready (h : CramAuth) : Prop := h.state ≠ .ready ∧ h.state ≠ .streaming

/-- The same was written and the same waits. -/
structure Alike (h h' : CramAuth) : Prop where
  pending : h'.pending = h.pending
  sent : h'.subscriptionSent = h.subscriptionSent
  counter : h'.subCounter = h.subCounter
  written : subscribed h' = subscribed h

theorem Alike.next (ha : Alike h h') : nextSubscription h' = nextSubscription h := by
  rw [nextSubscription, nextSubscription, ha.pending, ha.sent, ha.counter]

theorem alike_part (hpart : handshakePart h' = handshakePart h) : Alike h h' :=
  ⟨congrArg HandshakePart.pending hpart, congrArg HandshakePart.subscriptionSent hpart,
    congrArg HandshakePart.subCounter hpart,
    congrArg (fun part => (part.log.map Entry.action).filterMap subscriptionOf) hpart⟩

theorem alike_hear (line : List Byte) (c : Component CramAuth) : Alike c.own (hear line c).own := by
  refine ⟨rfl, rfl, rfl, ?_⟩
  rw [subscribed_append (actions_hear line c)]
  exact List.append_nil _

theorem alike_setState (s : CramAuthState) (c : Component CramAuth) : Alike c.own (setState s c).own :=
  ⟨rfl, rfl, rfl, subscribed_setState s c⟩

theorem alike_sendLine {line : List Byte} (hline : ¬IsSubscription line) (c : Component CramAuth) :
    Alike c.own (sendLine line c).own := by
  obtain ⟨log, hown⟩ := sendLine_own line c
  have hwritten := subscribed_sendLine_of_not hline c
  rw [hown] at hwritten ⊢
  exact ⟨rfl, rfl, rfl, hwritten⟩

theorem Alike.trans {h'' : CramAuth} (ha : Alike h h') (ha' : Alike h' h'') : Alike h h'' :=
  ⟨ha'.pending.trans ha.pending, ha'.sent.trans ha.sent, ha'.counter.trans ha.counter, ha'.written.trans ha.written⟩

/-- **A line of the server** leaves what waits alone, or ends the handshake and sends it. -/
theorem processLine_cases (sha256 : List Byte → List Byte) (line : List Byte) (c : Component CramAuth) :
    (Unready c.own ∧ Unready (processLine sha256 line c).own ∧ Alike c.own (processLine sha256 line c).own) ∨
    (Unready c.own ∧ ∃ d : Component CramAuth, d.own.state = .ready ∧ Alike c.own d.own ∧
      processLine sha256 line c = sendPendingSubscription d) ∨
    processLine sha256 line c = hear line c := by
  have hheard := alike_hear line c
  rw [processLine]
  cases hstate : c.own.state with
  | waitingGreeting =>
    have hunready : Unready c.own := ⟨by simp [hstate], by simp [hstate]⟩
    refine Or.inl ⟨hunready, ?_⟩
    simp only
    rw [handleGreeting]
    split
    · rw [fail_own]
      exact ⟨hunready, hheard⟩
    · rename_i greeting _
      have hgreeting : Alike c.own (update (fun h => { h with greeting := greeting }) (hear line c)).own :=
        hheard.trans ⟨rfl, rfl, rfl, rfl⟩
      exact ⟨⟨fun h => CramAuthState.noConfusion h, fun h => CramAuthState.noConfusion h⟩,
        hgreeting.trans (alike_setState .waitingChallenge _)⟩
  | waitingChallenge =>
    have hunready : Unready c.own := ⟨by simp [hstate], by simp [hstate]⟩
    refine Or.inl ⟨hunready, ?_⟩
    simp only
    rw [handleChallenge]
    split
    · rw [fail_own]
      exact ⟨hunready, hheard⟩
    · rename_i challenge _
      have hsend := alike_sendLine
        (not_isSubscription_auth (computeResponse sha256 challenge c.own.apiKey) c.own.dataset) (hear line c)
      exact ⟨⟨fun h => CramAuthState.noConfusion h, fun h => CramAuthState.noConfusion h⟩,
        (hheard.trans hsend).trans (alike_setState .authenticating _)⟩
  | authenticating =>
    have hunready : Unready c.own := ⟨by simp [hstate], by simp [hstate]⟩
    obtain ⟨greeting, htake⟩ := takeSessionId_eq line (hear line c)
    have hgreeting : Alike c.own (update (fun h => { h with greeting := greeting }) (hear line c)).own :=
        hheard.trans ⟨rfl, rfl, rfl, rfl⟩
    simp only
    rw [handleAuthResponse, htake]
    cases authFailure line with
    | some msg =>
      refine Or.inl ⟨hunready, ?_⟩
      simp only
      rw [fail_own]
      exact ⟨hunready, hgreeting⟩
    | none =>
      exact Or.inr (Or.inl ⟨hunready, setState .ready (update (fun h => { h with greeting := greeting }) (hear line c)), rfl,
        hgreeting.trans (alike_setState .ready _), rfl⟩)
  | ready => exact Or.inr (Or.inr rfl)
  | streaming => exact Or.inr (Or.inr rfl)

/-! ### Timely calls -/

/-- After timely calls: before the handshake is over at most one of them, which waits; then all are written. -/
inductive Kept (ps : List Subscription) (h : CramAuth) : Prop
  | fresh (early : Unready h) (calls : ps = []) (pending : h.pending = none) (unsent : h.subscriptionSent = false)
      (counter : h.subCounter = 0) (written : subscribed h = [])
  | waiting (p : Subscription) (early : Unready h) (calls : ps = [p]) (pending : h.pending = some (given p))
      (unsent : h.subscriptionSent = false) (counter : h.subCounter = 0) (written : subscribed h = [])
      (fits : lineFits (subscriptionLine (given p) 1) = true)
  | ready (state : h.state = .ready) (next : nextSubscription h = none) (counter : h.subCounter = ps.length)
      (small : ps.length < 2 ^ 32) (written : subscribed h = expected ps)
  | streaming (state : h.state = .streaming) (written : subscribed h = expected ps)

theorem kept_new (apiKey dataset : List Byte) : Kept [] (newCramAuth apiKey dataset).own :=
  .fresh ⟨nofun, nofun⟩ rfl rfl rfl rfl rfl

theorem expected_concat (ps : List Subscription) (p : Subscription) :
    expected (ps ++ [p]) = expected ps ++ [subscriptionLine (given p) (ps.length + 1)] := by
  rw [expected, List.mapIdx_concat, expected]

variable {ps : List Subscription}

/-- The property is about what was written and what waits, and whether the handshake is over. -/
theorem Kept.alike (hk : Kept ps h) (ha : Alike h h')
    (hstate : h'.state = h.state ∨ Unready h ∧ Unready h') : Kept ps h' := by
  have hunready : Unready h → Unready h' := fun he => by
    rcases hstate with hsame | hboth
    · rw [Unready, hsame]
      exact he
    · exact hboth.2
  cases hk with
  | fresh early calls pending unsent counter written =>
    exact .fresh (hunready early) calls (ha.pending.trans pending) (ha.sent.trans unsent) (ha.counter.trans counter)
      (ha.written.trans written)
  | waiting p early calls pending unsent counter written fits =>
    exact .waiting p (hunready early) calls (ha.pending.trans pending) (ha.sent.trans unsent)
      (ha.counter.trans counter) (ha.written.trans written) fits
  | ready state next counter small written =>
    have hsame := hstate.resolve_right fun hboth => hboth.1.1 state
    exact .ready (hsame.trans state) (ha.next.trans next) (ha.counter.trans counter) small (ha.written.trans written)
  | streaming state written =>
    have hsame := hstate.resolve_right fun hboth => hboth.1.2 state
    exact .streaming (hsame.trans state) (ha.written.trans written)

/-- The next call is written. -/
theorem kept_send {p : Subscription} (hstate : c.own.state = .ready) (hpending : c.own.pending = some (given p))
    (hsent : c.own.subscriptionSent = false) (hcounter : c.own.subCounter = ps.length)
    (hsmall : ps.length + 1 < 2 ^ 32) (hwritten : subscribed c.own = expected ps)
    (hfits : lineFits (subscriptionLine (given p) (ps.length + 1)) = true) :
    Kept (ps ++ [p]) (sendPendingSubscription c).own := by
  have hid : (c.own.subCounter + 1) % 2 ^ 32 = ps.length + 1 := by rw [hcounter, Nat.mod_eq_of_lt hsmall]
  obtain ⟨hlines, hcount, hnext, hend⟩ := sendPendingSubscription_spec hpending hsent hstate hid
  have hall : subscribed (sendPendingSubscription c).own = expected (ps ++ [p]) := by
    rw [hlines, if_pos hfits, hwritten, expected_concat]
  have hlength : (ps ++ [p]).length = ps.length + 1 := by rw [List.length_append, List.length_singleton]
  rcases hend with hend | hend
  · exact .ready hend hnext (hcount.trans hlength.symm) (hlength ▸ hsmall) hall
  · exact .streaming hend hall

theorem kept_subscribe {p : Subscription} (hk : Kept ps c.own) (hok : Timely p c.own) :
    Kept (ps ++ [p]) (subscribe p c).own := by
  obtain ⟨hns, hfree, hsmall, hfits⟩ := hok
  rw [subscribe_eq]
  cases hk with
  | fresh early calls pending unsent counter written =>
    rw [if_neg early.1, calls]
    rw [counter] at hfits
    exact .waiting p early rfl rfl rfl counter written hfits
  | waiting q early _ pending =>
    have hnone := hfree.resolve_left early.1
    rw [pending] at hnone
    exact absurd hnone (Option.some_ne_none _)
  | ready state _ counter _ written =>
    rw [counter] at hsmall hfits
    have hsend := kept_send (c := queue p c) state rfl rfl counter hsmall written hfits
    rw [if_pos state]
    exact hsend
  | streaming state => exact absurd state hns

theorem kept_startStreaming (hk : Kept ps c.own) : Kept ps (startStreaming c).own := by
  rw [startStreaming_eq]
  split
  · rename_i hready
    refine .streaming rfl ?_
    rw [subscribed_begin]
    cases hk with
    | fresh early => exact absurd hready.1 early.1
    | waiting p early => exact absurd hready.1 early.1
    | ready _ _ _ _ written => exact written
    | streaming _ written => exact written
  · exact hk.alike ⟨rfl, rfl, rfl, rfl⟩ (Or.inl rfl)

theorem kept_processLine {line : List Byte} (hk : Kept ps c.own) : Kept ps (processLine sha256 line c).own := by
  rcases processLine_cases sha256 line c with ⟨hunready, hunready', halike⟩ | ⟨hunready, d, hready, halike, heq⟩ | heq
  · exact hk.alike halike (Or.inr ⟨hunready, hunready'⟩)
  · rw [heq]
    cases hk with
    | fresh _ calls pending _ counter written =>
      have hnone := halike.pending.trans pending
      have hsame : sendPendingSubscription d = d := by rw [sendPendingSubscription, hnone]
      rw [hsame]
      refine .ready hready ?_ (by rw [halike.counter, counter, calls]; rfl) (by rw [calls]; decide) ?_
      · rw [nextSubscription, hnone]
        exact ite_self _
      · rw [halike.written, written, calls]
        rfl
    | waiting p _ calls pending unsent counter written fits =>
      rw [calls]
      show Kept ([] ++ [p]) _
      exact kept_send hready (halike.pending.trans pending) (halike.sent.trans unsent) (halike.counter.trans counter)
        (by decide) (halike.written.trans written) fits
    | ready state => exact absurd state hunready.1
    | streaming state => exact absurd state hunready.2
  · rw [heq]
    exact hk.alike (alike_hear line c) (Or.inl rfl)

/-! ### Steps -/

theorem atLines_true (sha256 : List Byte → List Byte) (bs : List Byte) (c : Component CramAuth) :
    AtLines sha256 (fun _ _ => True) bs c := by
  induction bs generalizing c with
  | nil => trivial
  | cons b bs ih => exact Or.inr ⟨fun _ => trivial, Or.inr (ih _)⟩

/-- **The rule of a step** for what is about the lines written and what waits, not about how the lines of the server
are cut. -/
theorem step_preserves_alike {Inv : CramAuth → Prop}
    (hcongr : ∀ {h h'}, Alike h h' → h'.state = h.state → Inv h → Inv h')
    (hstreaming : ∀ {h h'}, h.state = .streaming → h'.state = .streaming → subscribed h' = subscribed h →
      Inv h → Inv h')
    (hline : ∀ {c : Component CramAuth} line, Inv c.own → Inv (processLine sha256 line c).own) (depth : ℕ) {i : Input}
    (hrest : AtRest c.own) (h : Inv c.own) (hsubscribe : ∀ p, i = .subscribe p → Inv (subscribe p c).own)
    (hstart : i = .startStreaming → Inv (startStreaming c).own) : Inv (step sha256 depth c i).own := by
  have hlines : ∀ {c : Component CramAuth} {line}, Inv c.own → c.own.state ≠ .streaming → True →
      Inv (processLine sha256 line (push 10 c)).own := fun {c line} hc _ _ => by
    have hpush : Alike c.own (push 10 c).own := ⟨rfl, rfl, rfl, rfl⟩
    exact hline line (hcongr hpush rfl hc)
  have hstep := @step_preserves sha256 c Inv
    (fun hpart => hcongr (alike_part hpart) (congrArg HandshakePart.state hpart))
    (fun haside hs => hstreaming hs (haside.state.trans hs) haside.subscribed) (fun _ _ => True) hlines depth i hrest h
  exact hstep hsubscribe hstart fun segments script _ => Or.inr (Or.inr (atLines_true sha256 _ _))

theorem kept_step (depth : ℕ) {i : Input} (hrest : AtRest c.own) (hk : Kept ps c.own) (hok : Careful c i) :
    Kept (ps ++ i.subscription.toList) (step sha256 depth c i).own := by
  by_cases hi : ∃ p, i = .subscribe p
  · obtain ⟨p, rfl⟩ := hi
    exact kept_subscribe hk hok
  · have hnone : i.subscription = none := by
      cases i with
      | subscribe p => exact absurd ⟨p, rfl⟩ hi
      | _ => rfl
    rw [hnone, Option.toList_none, List.append_nil]
    refine step_preserves_alike (fun ha hs hk => hk.alike ha (Or.inl hs)) ?_ (fun _ hk => kept_processLine hk) depth
      hrest hk (fun p hp => absurd ⟨p, hp⟩ hi) fun _ => kept_startStreaming hk
    intro h h' hs hs' hwritten hk
    cases hk with
    | fresh early => exact absurd hs early.2
    | waiting p early => exact absurd hs early.2
    | ready state => rw [state] at hs; exact absurd hs (by decide)
    | streaming _ written => exact .streaming hs' (hwritten.trans written)

/-! ### Calls that are not timely -/

/-- How many lines the end of the handshake would write: of a subscription that waits and fits. -/
def waits (h : CramAuth) : ℕ :=
  if h.state = .ready ∨ h.state = .streaming then 0 else ((nextSubscription h).filter lineFits).toList.length

/-- **Off for good**: fewer lines than calls, or a line that is not the one of its call. -/
def Off (ps : List Subscription) (h : CramAuth) : Prop :=
  (subscribed h).length + waits h < ps.length ∨
    ∃ i < (subscribed h).length, i < ps.length ∧ (subscribed h)[i]? ≠ (expected ps)[i]?

/-- Lines are written, at most as many as waited and `n` more. -/
def Writes (n : ℕ) (h h' : CramAuth) : Prop :=
  ∃ more, subscribed h' = subscribed h ++ more ∧ more.length + waits h' ≤ waits h + n

theorem length_filter_le_one (line : Option (List Byte)) : (line.filter lineFits).toList.length ≤ 1 := by
  cases line.filter lineFits with
  | none => exact Nat.zero_le 1
  | some line => exact Nat.le_refl 1

theorem waits_le_one (h : CramAuth) : waits h ≤ 1 := by
  rw [waits]
  split
  · exact Nat.zero_le 1
  · exact length_filter_le_one _

theorem waits_over (hstate : h.state = .ready ∨ h.state = .streaming) : waits h = 0 := if_pos hstate

theorem Alike.waits_eq (ha : Alike h h') (hstate : h'.state = h.state ∨ Unready h ∧ Unready h') :
    waits h' = waits h := by
  have hover : (h'.state = .ready ∨ h'.state = .streaming) ↔ (h.state = .ready ∨ h.state = .streaming) := by
    rcases hstate with hsame | ⟨hunready, hunready'⟩
    · rw [hsame]
    · rw [Unready] at hunready hunready'
      tauto
  simp only [waits, hover, ha.next]

theorem writes_alike (ha : Alike h h') (hstate : h'.state = h.state ∨ Unready h ∧ Unready h') : Writes 0 h h' :=
  ⟨[], by rw [ha.written, List.append_nil], by rw [ha.waits_eq hstate, List.length_nil]; omega⟩

/-- **Off, and more calls**: still off. -/
theorem Off.writes {qs : List Subscription} (hoff : Off ps h) (hw : Writes qs.length h h') : Off (ps ++ qs) h' := by
  obtain ⟨more, hmore, hcount⟩ := hw
  have hlength : (subscribed h').length = (subscribed h).length + more.length := by rw [hmore, List.length_append]
  rcases hoff with hbehind | ⟨i, hi, hcall, hwrong⟩
  · left
    rw [hlength, List.length_append]
    omega
  · right
    have hcall' : i < (ps ++ qs).length := by rw [List.length_append]; omega
    refine ⟨i, by omega, hcall', ?_⟩
    have hsame : (expected (ps ++ qs))[i]? = (expected ps)[i]? := by
      rw [expected, List.mapIdx_append, List.getElem?_append_left (by rw [List.length_mapIdx]; exact hcall), expected]
    rw [hmore, List.getElem?_append_left hi, hsame]
    exact hwrong

/-- `SendPendingSubscription` in `Ready`. -/
theorem writes_send (hstate : c.own.state = .ready) :
    ∃ more, subscribed (sendPendingSubscription c).own = subscribed c.own ++ more ∧
      more.length ≤ ((nextSubscription c.own).filter lineFits).toList.length ∧
      waits (sendPendingSubscription c).own = 0 := by
  cases hnext : nextSubscription c.own with
  | none =>
    have hsame : sendPendingSubscription c = c := by rw [sendPendingSubscription_eq, hnext]
    rw [hsame]
    exact ⟨[], (List.append_nil _).symm, Nat.zero_le _, waits_over (Or.inl hstate)⟩
  | some line =>
    rw [nextSubscription] at hnext
    split at hnext
    · exact absurd hnext (Option.some_ne_none _).symm
    · rename_i hsent
      obtain ⟨p, hp, rfl⟩ := Option.map_eq_some_iff.mp hnext
      obtain ⟨hlines, -, -, hend⟩ := sendPendingSubscription_spec hp (Bool.eq_false_iff.mpr hsent) hstate rfl
      refine ⟨_, hlines, ?_, waits_over hend⟩
      rw [Option.filter_some]
      split
      · exact Nat.le_refl _
      · exact Nat.le_refl _

theorem writes_subscribe (p : Subscription) (c : Component CramAuth) : Writes 1 c.own (subscribe p c).own := by
  rw [subscribe_eq]
  split
  · rename_i hstate
    obtain ⟨more, hmore, hcount, hwaits⟩ := writes_send (c := queue p c) hstate
    refine ⟨more, hmore, ?_⟩
    have hone := length_filter_le_one (nextSubscription (queue p c).own)
    omega
  · have hone := waits_le_one (queue p c).own
    exact ⟨[], (List.append_nil _).symm, by rw [List.length_nil]; omega⟩

theorem writes_startStreaming (c : Component CramAuth) : Writes 0 c.own (startStreaming c).own := by
  rw [startStreaming_eq]
  split
  · refine ⟨[], ?_, ?_⟩
    · rw [subscribed_begin, List.append_nil]
      rfl
    · rw [waits_over (Or.inr rfl), List.length_nil]
      omega
  · exact writes_alike ⟨rfl, rfl, rfl, rfl⟩ (Or.inl rfl)

theorem writes_processLine (sha256 : List Byte → List Byte) (line : List Byte) (c : Component CramAuth) :
    Writes 0 c.own (processLine sha256 line c).own := by
  rcases processLine_cases sha256 line c with ⟨hunready, hunready', halike⟩ | ⟨hunready, d, hready, halike, heq⟩ | heq
  · exact writes_alike halike (Or.inr ⟨hunready, hunready'⟩)
  · obtain ⟨more, hmore, hcount, hwaits⟩ := writes_send hready
    rw [heq]
    refine ⟨more, by rw [hmore, halike.written], ?_⟩
    have hbefore : waits c.own = ((nextSubscription c.own).filter lineFits).toList.length :=
      if_neg fun hover => hover.elim hunready.1 hunready.2
    rw [halike.next] at hcount
    omega
  · rw [heq]
    exact writes_alike (alike_hear line c) (Or.inl rfl)

theorem off_step (depth : ℕ) {i : Input} (hrest : AtRest c.own) (hoff : Off ps c.own) :
    Off (ps ++ i.subscription.toList) (step sha256 depth c i).own := by
  have hsilent : ∀ {h h'}, Writes 0 h h' → Off ps h → Off ps h' := fun hw hoff => by
    have hnext := @Off.writes _ _ ps [] hoff hw
    rwa [List.append_nil] at hnext
  by_cases hi : ∃ p, i = .subscribe p
  · obtain ⟨p, rfl⟩ := hi
    exact hoff.writes (writes_subscribe p c)
  · have hnone : i.subscription = none := by
      cases i with
      | subscribe p => exact absurd ⟨p, rfl⟩ hi
      | _ => rfl
    rw [hnone, Option.toList_none, List.append_nil]
    refine step_preserves_alike (fun ha hs => hsilent (writes_alike ha (Or.inl hs))) ?_
      (fun line => hsilent (writes_processLine sha256 line _)) depth hrest hoff (fun p hp => absurd ⟨p, hp⟩ hi)
      fun _ => hsilent (writes_startStreaming c) hoff
    intro h h' hs hs' hwritten
    refine hsilent ⟨[], by rw [hwritten, List.append_nil], ?_⟩
    rw [waits_over (Or.inr hs')]
    exact Nat.zero_le _

/-- Off at the end: not what was called for. -/
theorem Off.ne (hoff : Off ps h) : subscribed h ≠ expected ps := by
  intro heq
  rcases hoff with hbehind | ⟨i, -, -, hwrong⟩
  · rw [heq, expected, List.length_mapIdx] at hbehind
    omega
  · exact hwrong (by rw [heq])

theorem length_expected (ps : List Subscription) : (expected ps).length = ps.length := List.length_mapIdx

/-- A number that wraps shows in the line. -/
theorem subscriptionLine_wrapped (p : Subscription) : subscriptionLine p 0 ≠ subscriptionLine p (2 ^ 32) := by
  intro h
  have hlength := congrArg List.length h
  have hzero : (decimal 0).length = 1 := by decide
  have hwrap : (decimal (2 ^ 32)).length = 10 := by decide
  simp only [subscriptionLine, List.length_append, hzero, hwrap] at hlength
  omega

/-- **An untimely call** is off at once. -/
theorem off_of_untimely {p : Subscription} (hk : Kept ps c.own) (hlate : ¬Timely p c.own) :
    Off (ps ++ [p]) (subscribe p c).own := by
  rw [subscribe_eq]
  cases hk with
  | fresh early calls pending unsent counter written =>
    rw [if_neg early.1]
    left
    have hfits : lineFits (subscriptionLine (given p) 1) = false := by
      refine Bool.eq_false_iff.mpr fun hfits => hlate ⟨early.2, Or.inr pending, ?_, ?_⟩
      · rw [counter]
        decide
      · rw [counter]
        exact hfits
    have hnext : nextSubscription (queue p c).own = some (subscriptionLine (given p) 1) := by
      show some (subscriptionLine (given p) ((c.own.subCounter + 1) % 2 ^ 32)) = _
      rewrite [counter]
      rfl
    have hwaits : waits (queue p c).own = 0 := by
      rw [waits, hnext, Option.filter_some, hfits]
      exact ite_self _
    rw [hwaits, subscribed_queue, written, calls]
    exact Nat.zero_lt_one
  | waiting q early calls pending unsent counter written fits =>
    rw [if_neg early.1]
    left
    have hone := waits_le_one (queue p c).own
    rw [subscribed_queue, written, calls]
    show 0 + waits (queue p c).own < 2
    omega
  | ready state next counter small written =>
    rw [if_pos state]
    obtain ⟨hlines, -, -, hend⟩ := sendPendingSubscription_spec (c := queue p c) rfl rfl state rfl
    have hid : ((queue p c).own.subCounter + 1) % 2 ^ 32 = (ps.length + 1) % 2 ^ 32 := by rw [← counter]; rfl
    rw [hid, subscribed_queue, written] at hlines
    change subscribed _ = _ ++ (if lineFits (subscriptionLine (given p) _) then [subscriptionLine (given p) _] else _)
      at hlines
    split at hlines
    · rename_i hfits
      -- the line fits: the number has wrapped
      have hwrap : ps.length + 1 = 2 ^ 32 := by
        by_contra hne
        have hsmall : ps.length + 1 < 2 ^ 32 := by omega
        rw [Nat.mod_eq_of_lt hsmall] at hfits
        refine hlate ⟨by rw [state]; decide, Or.inl state, ?_, ?_⟩
        · rw [counter]
          exact hsmall
        · rw [counter]
          exact hfits
      have hlength := length_expected ps
      right
      refine ⟨ps.length, ?_, ?_, ?_⟩
      · rw [hlines, List.length_append, hlength, List.length_singleton]
        exact Nat.lt_succ_self _
      · rw [List.length_append, List.length_singleton]
        exact Nat.lt_succ_self _
      · rw [hlines, expected_concat, ← hlength, List.getElem?_concat_length, List.getElem?_concat_length, hlength,
          hwrap, Nat.mod_self]
        exact fun heq => subscriptionLine_wrapped _ (Option.some.inj heq)
    · left
      rw [hlines, waits_over hend, List.append_nil, length_expected, List.length_append, List.length_singleton]
      exact Nat.lt_succ_self _
  | streaming state written =>
    rw [if_neg (by simp [state])]
    left
    have hover : waits (queue p c).own = 0 := waits_over (Or.inr state)
    rw [hover, subscribed_queue, written, length_expected, List.length_append, List.length_singleton]
    exact Nat.lt_succ_self _

/-! ### Runs -/

theorem subscriptions_cons (i : Input) (inputs : List Input) :
    subscriptions (i :: inputs) = i.subscription.toList ++ subscriptions inputs := by
  rw [subscriptions, List.filterMap_cons]
  cases i.subscription <;> rfl

theorem off_run (depth : ℕ) {inputs : List Input} (hrest : AtRest c.own) (hoff : Off ps c.own) :
    Off (ps ++ subscriptions inputs) (Runs.run (step sha256 depth) c inputs).own := by
  induction inputs generalizing ps c with
  | nil =>
    rw [subscriptions, List.filterMap_nil, List.append_nil]
    exact hoff
  | cons i inputs ih =>
    rw [subscriptions_cons, ← List.append_assoc]
    exact ih (atRest_step depth i hrest) (off_step depth hrest hoff)

theorem kept_run (depth : ℕ) {inputs : List Input} (hrest : AtRest c.own) (hk : Kept ps c.own)
    (hok : Runs.Along Careful (step sha256 depth) c inputs) :
    Kept (ps ++ subscriptions inputs) (Runs.run (step sha256 depth) c inputs).own := by
  induction inputs generalizing ps c with
  | nil =>
    rw [subscriptions, List.filterMap_nil, List.append_nil]
    exact hk
  | cons i inputs ih =>
    rw [subscriptions_cons, ← List.append_assoc]
    exact ih (atRest_step depth i hrest) (kept_step depth hrest hk hok.1) hok.2

/-- A run with an untimely call is off. -/
theorem off_of_careless (depth : ℕ) {inputs : List Input} (hrest : AtRest c.own) (hk : Kept ps c.own)
    (hbad : ¬Runs.Along Careful (step sha256 depth) c inputs) :
    Off (ps ++ subscriptions inputs) (Runs.run (step sha256 depth) c inputs).own := by
  induction inputs generalizing ps c with
  | nil => exact absurd trivial hbad
  | cons i inputs ih =>
    rw [subscriptions_cons, ← List.append_assoc]
    by_cases hok : Careful c i
    · exact ih (atRest_step depth i hrest) (kept_step depth hrest hk hok) fun htail => hbad ⟨hok, htail⟩
    · refine off_run depth (atRest_step depth i hrest) ?_
      cases i with
      | subscribe p => exact off_of_untimely hk hok
      | _ => exact absurd trivial hok

/-- **Each call has its line exactly where all are timely**: once the handshake is over, the subscription lines written
are those of the calls of `Subscribe`, in call order and numbered from 1, if and only if no call was made while
another one waited for the handshake or after the stream began, and every line fits and has a number of its own. -/
theorem subscribed_iff (sha256 : List Byte → List Byte) (apiKey dataset : List Byte) (depth : ℕ) (inputs : List Input)
    (hover : (Runs.run (step sha256 depth) (newCramAuth apiKey dataset) inputs).own.state = .ready ∨
      (Runs.run (step sha256 depth) (newCramAuth apiKey dataset) inputs).own.state = .streaming) :
    subscribed (Runs.run (step sha256 depth) (newCramAuth apiKey dataset) inputs).own =
        expected (subscriptions inputs) ↔
      Runs.Along Careful (step sha256 depth) (newCramAuth apiKey dataset) inputs := by
  have hrest : AtRest (newCramAuth apiKey dataset).own := (settled_new apiKey dataset).idle
  constructor
  · intro hwritten
    by_contra hbad
    exact (off_of_careless depth hrest (kept_new apiKey dataset) hbad).ne hwritten
  · intro hok
    cases kept_run depth hrest (kept_new apiKey dataset) hok with
    | fresh early => exact absurd hover fun h => h.elim early.1 early.2
    | waiting p early => exact absurd hover fun h => h.elim early.1 early.2
    | ready _ _ _ _ written => exact written
    | streaming _ written => exact written

/-- Two calls, for other symbols. -/
def spy : Subscription := { symbols := ascii "SPY", schema := ascii "trades", stypeIn := ascii "raw_symbol" }

def qqq : Subscription := { symbols := ascii "QQQ", schema := ascii "trades", stypeIn := ascii "raw_symbol" }

/-- One before the handshake and one after it. -/
theorem subscribed_aroundHandshake :
    subscribed (Runs.run (step zeroDigest 0) (newCramAuth [] [])
        [.subscribe spy, call "lsg|0.1\ncram=a\nsuccess=1|\n", .subscribe qqq, .startStreaming]).own =
      expected [spy, qqq] :=
  (subscribed_iff zeroDigest [] [] 0
    [.subscribe spy, call "lsg|0.1\ncram=a\nsuccess=1|\n", .subscribe qqq, .startStreaming]
    (by decide +kernel)).mpr ⟨by decide +kernel, trivial, by decide +kernel, trivial, trivial⟩

/-- **Two calls before the handshake**: only the second one has a line. -/
theorem subscription_lost :
    ¬ ∀ (sha256 : List Byte → List Byte) (apiKey dataset : List Byte) (depth : ℕ) (inputs : List Input),
      ((Runs.run (step sha256 depth) (newCramAuth apiKey dataset) inputs).own.state = .ready ∨
        (Runs.run (step sha256 depth) (newCramAuth apiKey dataset) inputs).own.state = .streaming) →
      subscribed (Runs.run (step sha256 depth) (newCramAuth apiKey dataset) inputs).own =
        expected (subscriptions inputs) := by
  intro h
  have hlost := h zeroDigest [] [] 0 [.subscribe spy, .subscribe qqq, call "lsg|0.1\ncram=a\nsuccess=1|\n"]
    (by decide +kernel)
  exact absurd hlost (by decide +kernel)

end DbnPipe.Live
