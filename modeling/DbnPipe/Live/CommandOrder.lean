import DbnPipe.Live.TextScan
import DbnPipe.Library.Runs

/-!
# The order of the client's commands

When `CramAuth` writes `start_session`, and when it takes itself to be streaming.

* `InOrder` — every `start_session` is the only one so far, comes after **a line of the server that is a
  successful auth response**, after a subscription written and after no subscription refused; every assignment of
  `Streaming` comes after it;
* `OrderlyLine`, `Orderly` — the steps that keep this: where the start follows, the subscription fits, and
  `StartStreaming` is not called when a subscription was refused;
* `Stage` — how far a component is, with what it has written by then;
* `Aside` — **the stream does not touch any of this**, whatever the downstream does;
* `Beside`, `step_preserves` — the rule of a step: what its commands and lines preserve, it preserves;
* `commands_in_order` — the theorem, for every run of orderly steps.
-/

namespace DbnPipe.Live

variable (sha256 : List Byte → List Byte)

/-! ### The property and the condition -/

/-- A subscription is written. -/
def Action.Subscribes : Action → Prop
  | .wrote line => IsSubscription line
  | .heard _ _ | .refused _ | .state _ | .offered => False

/-- A subscription is refused by `SendLine`. -/
def Action.Refuses : Action → Prop
  | .refused line => IsSubscription line
  | .heard _ _ | .wrote _ | .state _ | .offered => False

instance : DecidablePred Action.Subscribes
  | .wrote line => inferInstanceAs (Decidable (IsSubscription line))
  | .heard _ _ | .refused _ | .state _ | .offered => inferInstanceAs (Decidable False)

instance : DecidablePred Action.Refuses
  | .refused line => inferInstanceAs (Decidable (IsSubscription line))
  | .heard _ _ | .wrote _ | .state _ | .offered => inferInstanceAs (Decidable False)

/-- A line of the server is a successful response to the auth request. -/
def Action.Accepts : Action → Prop
  | .heard s line => s = .authenticating ∧ authFailure line = none
  | .refused _ | .wrote _ | .state _ | .offered => False

/-- The auth response was successful, and `Ready` entered. -/
def Admitted (acts : List Action) : Prop := (∃ a ∈ acts, a.Accepts) ∧ .state .ready ∈ acts

/-- What may follow these actions. -/
def Allowed (before : List Action) : Action → Prop
  | .wrote line =>
    line = startSession →
      .wrote startSession ∉ before ∧ Admitted before ∧ (∃ a ∈ before, a.Subscribes) ∧
        ∀ a ∈ before, ¬a.Refuses
  | .state s => s = .streaming → .wrote startSession ∈ before
  | .heard _ _ | .refused _ | .offered => True

/-- Every action is allowed after those before it. -/
def InOrder (acts : List Action) : Prop :=
  ∀ before a after, acts = before ++ a :: after → Allowed before a

/-- The actions of a component so far. -/
def actions (h : CramAuth) : List Action := h.log.map Entry.action

/-- A server line is orderly: an auth response that makes the client subscribe and start finds a subscription
that fits. -/
def OrderlyLine (c : Component CramAuth) (line : List Byte) : Prop :=
  c.own.state = .authenticating → authFailure line = none → c.own.startRequested = true →
    ∀ sub ∈ nextSubscription c.own, lineFits sub = true

/-- A step is orderly. -/
def Orderly (c : Component CramAuth) : Input → Prop
  | .data segments script =>
    c.closed = true ∨ c.own.state = .streaming ∨
      AtLines sha256 OrderlyLine (segments.flatMap Segment.bytes) (setScript script c).enter
  | .subscribe p =>
    c.own.state = .ready → c.own.startRequested = true →
      ∀ sub ∈ nextSubscription (queue p c).own, lineFits sub = true
  | .startStreaming =>
    c.own.state = .ready → c.own.subscriptionSent = true → ∀ a ∈ actions c.own, ¬a.Refuses
  | .done _ | .error _ | .suspend | .resume _ | .requestClose | .runClose => True

instance (c : Component CramAuth) (line : List Byte) : Decidable (OrderlyLine c line) :=
  inferInstanceAs (Decidable (_ → _ → _ → ∀ sub ∈ nextSubscription c.own, _))

instance (c : Component CramAuth) : ∀ i, Decidable (Orderly sha256 c i)
  | .data _ _ => inferInstanceAs (Decidable (c.closed = true ∨ _ ∨ AtLines _ _ _ _))
  | .subscribe _ => inferInstanceAs (Decidable (_ → _ → ∀ sub ∈ nextSubscription _, _))
  | .startStreaming => inferInstanceAs (Decidable (_ → _ → ∀ a ∈ actions c.own, _))
  | .done _ | .error _ | .suspend | .resume _ | .requestClose | .runClose => inferInstanceAs (Decidable True)

/-! ### How far a component is -/

/-- Neither a subscription nor a start. -/
def Action.Plain : Action → Prop
  | .wrote line => ¬IsSubscription line ∧ line ≠ startSession
  | .refused line => ¬IsSubscription line
  | .state s => s ≠ .streaming
  | .heard _ _ | .offered => True

/-- The stages: before the auth response is accepted; ready, without and with a subscription; streaming. -/
inductive Stage (h : CramAuth) : Prop
  | early (ready : h.state ≠ .ready) (streaming : h.state ≠ .streaming)
      (unsent : h.subscriptionSent = false) (plain : ∀ a ∈ actions h, a.Plain)
  | unsent (state : h.state = .ready) (unsent : h.subscriptionSent = false)
      (ready : Admitted (actions h)) (plain : ∀ a ∈ actions h, a.Plain)
  | sent (state : h.state = .ready) (sent : h.subscriptionSent = true) (waiting : h.startRequested = false)
      (ready : Admitted (actions h)) (tried : ∃ a ∈ actions h, a.Subscribes ∨ a.Refuses)
      (notStarted : .wrote startSession ∉ actions h)
  | streaming (state : h.state = .streaming) (started : .wrote startSession ∈ actions h)

/-- The invariant. -/
structure Order (h : CramAuth) : Prop where
  inOrder : InOrder (actions h)
  stage : Stage h

variable {sha256} {h h' : CramAuth} {c : Component CramAuth}

theorem Action.Plain.not_refuses {a : Action} (ha : a.Plain) : ¬a.Refuses := by
  cases a with
  | refused line => exact ha
  | heard | wrote | state | offered => exact id

theorem Admitted.append {acts : List Action} (h : Admitted acts) (more : List Action) : Admitted (acts ++ more) := by
  obtain ⟨⟨a, ha, haccepts⟩, hready⟩ := h
  exact ⟨⟨a, List.mem_append_left _ ha, haccepts⟩, List.mem_append_left _ hready⟩

theorem not_started_of_plain {acts : List Action} (hp : ∀ a ∈ acts, a.Plain) : .wrote startSession ∉ acts :=
  fun hm => (hp _ hm).2 rfl

theorem inOrder_concat {acts : List Action} {a : Action} (ho : InOrder acts) (ha : Allowed acts a) :
    InOrder (acts ++ [a]) := by
  intro before b after he
  rcases List.eq_nil_or_concat after with rfl | ⟨after', z, rfl⟩
  · obtain ⟨rfl, hb⟩ := List.append_inj' he rfl
    obtain rfl := List.singleton_inj.mp hb
    exact ha
  · rw [List.concat_eq_append, ← List.cons_append, ← List.append_assoc] at he
    exact ho before b after' (List.append_inj' he rfl).1

/-- A plain action changes nothing, where the start has not been written. -/
theorem allowed_of_plain {acts : List Action} {a : Action} (ha : a.Plain) : Allowed acts a := by
  cases a with
  | wrote line => exact fun he => absurd he ha.2
  | refused line => exact trivial
  | state s => exact fun he => absurd he ha
  | heard | offered => exact trivial

theorem inOrder_append {acts more : List Action} (ho : InOrder acts) (hplain : ∀ a ∈ more, a.Plain) :
    InOrder (acts ++ more) := by
  induction more generalizing acts with
  | nil =>
    rw [List.append_nil]
    exact ho
  | cons a more ih =>
    have hone := inOrder_concat ho (allowed_of_plain (hplain a List.mem_cons_self))
    have hnext := ih hone fun b hb => hplain b (List.mem_cons_of_mem _ hb)
    rw [List.append_assoc] at hnext
    exact hnext

/-- The invariant is about the log, the state and two flags. -/
theorem order_congr (ho : Order h) (hacts : actions h' = actions h) (hstate : h'.state = h.state)
    (hsent : h'.subscriptionSent = h.subscriptionSent) (hstart : h'.startRequested = h.startRequested) :
    Order h' := by
  obtain ⟨hin, hstage⟩ := ho
  refine ⟨by rw [hacts]; exact hin, ?_⟩
  cases hstage with
  | early ready streaming unsent plain =>
    rw [← hstate] at ready streaming
    rw [← hsent] at unsent
    rw [← hacts] at plain
    exact .early ready streaming unsent plain
  | unsent state unsent ready plain =>
    rw [← hstate] at state
    rw [← hsent] at unsent
    rw [← hacts] at ready plain
    exact .unsent state unsent ready plain
  | sent state sent waiting ready tried notStarted =>
    rw [← hstate] at state
    rw [← hsent] at sent
    rw [← hstart] at waiting
    rw [← hacts] at ready tried notStarted
    exact .sent state sent waiting ready tried notStarted
  | streaming state started =>
    rw [← hstate] at state
    rw [← hacts] at started
    exact .streaming state started

/-! ### The client's lines -/

theorem actions_sendLine (line : List Byte) (c : Component CramAuth) :
    actions (sendLine line c).own =
      actions c.own ++ [if lineFits line then .wrote line else .refused line] := by
  rw [sendLine]
  cases lineFits line with
  | true => simp [actions, record]
  | false =>
    rw [if_neg Bool.false_ne_true, fail_own]
    simp [actions, record]

theorem actions_setState (s : CramAuthState) (c : Component CramAuth) :
    actions (setState s c).own = actions c.own ++ [.state s] := by
  simp [actions, setState, record]

/-- The start follows a subscription that was written. -/
theorem order_begin (hin : InOrder (actions c.own)) (hready : Admitted (actions c.own))
    (hnot : .wrote startSession ∉ actions c.own) (hsub : ∃ a ∈ actions c.own, a.Subscribes)
    (hnone : ∀ a ∈ actions c.own, ¬a.Refuses) : Order (begin c).own := by
  have hacts : actions (begin c).own = actions c.own ++ [.wrote startSession] ++ [.state .streaming] := by
    rw [begin, actions_setState, actions_sendLine, lineFits_startSession]
    rfl
  have hstart : .wrote startSession ∈ actions c.own ++ [.wrote startSession] :=
    List.mem_append_right _ (List.mem_singleton.mpr rfl)
  refine ⟨?_, .streaming rfl ?_⟩
  · rw [hacts]
    refine inOrder_concat (inOrder_concat hin fun _ => ⟨hnot, hready, hsub, hnone⟩) fun _ => hstart
  · rw [hacts]
    exact List.mem_append_left _ hstart

/-- **A subscription leaves**: if the start was requested it fits, and it is the first. -/
theorem order_send {line : List Byte} (hnext : nextSubscription c.own = some line)
    (hin : InOrder (actions c.own)) (hstate : c.own.state = .ready)
    (hready : Admitted (actions c.own)) (hnot : .wrote startSession ∉ actions c.own)
    (hq : c.own.startRequested = true → lineFits line = true ∧ ∀ a ∈ actions c.own, ¬a.Refuses) :
    Order (sendPendingSubscription c).own := by
  have hsub : IsSubscription line := by
    rw [nextSubscription] at hnext
    split at hnext
    · simp at hnext
    · obtain ⟨p, -, rfl⟩ := Option.map_eq_some_iff.mp hnext
      exact isSubscription_line _ _
  have hne : line ≠ startSession := fun he => not_isSubscription_startSession (he ▸ hsub)
  have hacts : actions (markSent (sendLine line (countSubscription c))).own =
      actions c.own ++ [if lineFits line then .wrote line else .refused line] :=
    actions_sendLine line (countSubscription c)
  have hallowed : Allowed (actions c.own) (if lineFits line then .wrote line else .refused line) := by
    split
    · exact fun he => absurd he hne
    · exact trivial
  have hnot' : Action.wrote startSession ∉
      actions c.own ++ [if lineFits line then .wrote line else .refused line] := by
    intro hm
    rcases List.mem_append.mp hm with hm | hm
    · exact hnot hm
    · have he := List.mem_singleton.mp hm
      split at he
      · exact hne (Action.wrote.inj he).symm
      · simp at he
  rw [sendPendingSubscription_eq, hnext]
  simp only
  split
  · rename_i hstart
    obtain ⟨hfits, hnone⟩ := hq hstart
    rw [hfits, if_pos rfl] at hacts hallowed hnot'
    refine order_begin ?_ ?_ ?_ ?_ ?_
    · rw [hacts]; exact inOrder_concat hin hallowed
    · rw [hacts]; exact hready.append _
    · rw [hacts]; exact hnot'
    · rw [hacts]
      exact ⟨_, List.mem_append_right _ (List.mem_singleton.mpr rfl), hsub⟩
    · rw [hacts]
      intro a ha
      rcases List.mem_append.mp ha with ha | ha
      · exact hnone a ha
      · rw [List.mem_singleton.mp ha]
        exact id
  · rename_i hstart
    refine ⟨?_, .sent ?_ rfl ?_ ?_ ?_ ?_⟩
    · rw [hacts]; exact inOrder_concat hin hallowed
    · rw [markSent, update_own, sendLine_state]
      exact hstate
    · rw [markSent, update_own, sendLine_startRequested]
      exact Bool.eq_false_iff.mpr hstart
    · rw [hacts]; exact hready.append _
    · rw [hacts]
      refine ⟨_, List.mem_append_right _ (List.mem_singleton.mpr rfl), ?_⟩
      split
      · exact Or.inl hsub
      · exact Or.inr hsub
    · rw [hacts]; exact hnot'

theorem order_subscribe (p : Subscription) (ho : Order c.own)
    (hq : c.own.state = .ready → c.own.startRequested = true →
      ∀ sub ∈ nextSubscription (queue p c).own, lineFits sub = true) : Order (subscribe p c).own := by
  obtain ⟨hin, hstage⟩ := ho
  rw [subscribe_eq]
  have hnext : ∃ line, nextSubscription (queue p c).own = some line := ⟨_, rfl⟩
  obtain ⟨line, hline⟩ := hnext
  have hfits : c.own.state = .ready → c.own.startRequested = true → lineFits line = true := fun hs hr =>
    hq hs hr line (by rw [hline]; rfl)
  cases hstage with
  | early ready streaming unsent plain =>
    rw [if_neg ready]
    exact ⟨hin, .early ready streaming rfl plain⟩
  | unsent state unsent ready plain =>
    rw [if_pos state]
    exact order_send hline hin state ready (not_started_of_plain plain) fun hr =>
      ⟨hfits state hr, fun a ha => (plain a ha).not_refuses⟩
  | sent state sent waiting ready tried notStarted =>
    rw [if_pos state]
    refine order_send hline hin state ready notStarted fun hr => ?_
    rw [show (queue p c).own.startRequested = c.own.startRequested from rfl, waiting] at hr
    simp at hr
  | streaming state started =>
    rw [if_neg (by simp [state])]
    exact ⟨hin, .streaming state started⟩

theorem order_startStreaming (ho : Order c.own)
    (hq : c.own.state = .ready → c.own.subscriptionSent = true → ∀ a ∈ actions c.own, ¬a.Refuses) :
    Order (startStreaming c).own := by
  obtain ⟨hin, hstage⟩ := ho
  rw [startStreaming_eq]
  cases hstage with
  | early ready streaming unsent plain =>
    rw [if_neg fun he => ready he.1]
    exact ⟨hin, .early ready streaming unsent plain⟩
  | unsent state unsent ready plain =>
    rw [if_neg (by simp [unsent])]
    exact ⟨hin, .unsent state unsent ready plain⟩
  | sent state sent waiting ready tried notStarted =>
    rw [if_pos ⟨state, sent⟩]
    have hnone := hq state sent
    obtain ⟨a, ha, htried⟩ := tried
    refine order_begin hin ready notStarted ⟨a, ha, htried.resolve_right (hnone a ha)⟩ hnone
  | streaming state started =>
    rw [if_neg (by simp [state])]
    exact ⟨hin, .streaming state started⟩

/-! ### The server's lines -/

/-- A plain action of a component whose auth response is still to come. -/
theorem order_early (acts : List Action) (hacts : actions h' = actions h ++ acts)
    (hplain : ∀ a ∈ acts, a.Plain) (hin : InOrder (actions h)) (hall : ∀ a ∈ actions h, a.Plain)
    (hready : h'.state ≠ .ready) (hstreaming : h'.state ≠ .streaming) (hsent : h'.subscriptionSent = false) :
    Order h' := by
  have hin' : InOrder (actions h') := by
    rw [hacts]
    exact inOrder_append hin hplain
  refine ⟨hin', .early hready hstreaming hsent fun a ha => ?_⟩
  rw [hacts] at ha
  rcases List.mem_append.mp ha with ha | ha
  · exact hall a ha
  · exact hplain a ha

theorem actions_hear (line : List Byte) (c : Component CramAuth) :
    actions (hear line c).own = actions c.own ++ [.heard c.own.state line] := by
  simp [actions, hear, record]

/-- A line that is only written down. -/
theorem order_hear (line : List Byte) (ho : Order c.own) : Order (hear line c).own := by
  obtain ⟨hin, hstage⟩ := ho
  have hacts := actions_hear line c
  have hplain : ∀ a ∈ [Action.heard c.own.state line], a.Plain := fun a ha => by
    rw [List.mem_singleton.mp ha]
    exact trivial
  have hall : (∀ a ∈ actions c.own, a.Plain) → ∀ a ∈ actions (hear line c).own, a.Plain := by
    intro hc a ha
    rw [hacts] at ha
    exact (List.mem_append.mp ha).elim (hc a) (hplain a)
  refine ⟨by rw [hacts]; exact inOrder_append hin hplain, ?_⟩
  cases hstage with
  | early ready streaming unsent plain => exact .early ready streaming unsent (hall plain)
  | unsent state unsent ready plain =>
    exact .unsent state unsent (by rw [hacts]; exact ready.append _) (hall plain)
  | sent state sent waiting ready tried notStarted =>
    obtain ⟨a, ha, htried⟩ := tried
    refine .sent state sent waiting (by rw [hacts]; exact ready.append _) ⟨a, ?_, htried⟩ fun hm => ?_
    · rw [hacts]
      exact List.mem_append_left _ ha
    · rw [hacts] at hm
      rcases List.mem_append.mp hm with hm | hm
      · exact notStarted hm
      · exact absurd (List.mem_singleton.mp hm) (by simp)
  | streaming state started =>
    refine .streaming state ?_
    rw [hacts]
    exact List.mem_append_left _ started

theorem order_handleGreeting (line : List Byte) (hin : InOrder (actions c.own)) (hplain : ∀ a ∈ actions c.own, a.Plain)
    (hstate : c.own.state = .waitingGreeting) (hunsent : c.own.subscriptionSent = false) :
    Order (handleGreeting line c).own := by
  rw [handleGreeting]
  split
  · rw [fail_own]
    exact ⟨hin, .early (by simp [hstate]) (by simp [hstate]) hunsent hplain⟩
  · refine order_early [.state .waitingChallenge] (actions_setState _ _) ?_ hin hplain (by simp [setState])
      (by simp [setState]) hunsent
    simp [Action.Plain]

theorem order_handleChallenge (line : List Byte) (hin : InOrder (actions c.own)) (hplain : ∀ a ∈ actions c.own, a.Plain)
    (hstate : c.own.state = .waitingChallenge) (hunsent : c.own.subscriptionSent = false) :
    Order (handleChallenge sha256 line c).own := by
  rw [handleChallenge]
  split
  · rw [fail_own]
    exact ⟨hin, .early (by simp [hstate]) (by simp [hstate]) hunsent hplain⟩
  · rename_i challenge _
    simp only
    generalize hline : formatAuthRequest (computeResponse sha256 challenge c.own.apiKey) c.own.dataset =
      request
    have hsub : ¬IsSubscription request := hline ▸ not_isSubscription_auth _ _
    have hne : request ≠ startSession := hline ▸ auth_ne_startSession _ _
    have hsent : (sendLine request c).own.subscriptionSent = false := by
      rw [sendLine]
      split
      · exact hunsent
      · rw [fail_own]
        exact hunsent
    refine order_early [if lineFits request then .wrote request else .refused request,
      .state .authenticating] ?_ ?_ hin hplain (by simp [setState]) (by simp [setState]) hsent
    · rw [actions_setState, actions_sendLine, List.append_assoc]
      rfl
    · intro a ha
      rcases List.mem_cons.mp ha with rfl | ha
      · split
        · exact ⟨hsub, hne⟩
        · exact hsub
      · rw [List.mem_singleton.mp ha]
        simp [Action.Plain]

/-- **The auth response**: a successful one makes the component ready, and a pending subscription leaves. -/
theorem order_handleAuthResponse {line : List Byte} (hin : InOrder (actions c.own))
    (hheard : .heard .authenticating line ∈ actions c.own) (hplain : ∀ a ∈ actions c.own, a.Plain)
    (hstate : c.own.state = .authenticating) (hunsent : c.own.subscriptionSent = false)
    (hq : OrderlyLine c line) : Order (handleAuthResponse line c).own := by
  obtain ⟨greeting, htake⟩ := takeSessionId_eq line c
  rw [handleAuthResponse, htake]
  cases hauth : authFailure line with
  | some msg =>
    simp only
    rw [fail_own]
    exact ⟨hin, .early (by simp [hstate]) (by simp [hstate]) hunsent hplain⟩
  | none =>
    simp only
    have hacts : actions (setState .ready (update (fun h => { h with greeting := greeting }) c)).own =
        actions c.own ++ [.state .ready] := actions_setState _ _
    have hplain' : ∀ a ∈ actions c.own ++ [.state .ready], a.Plain := by
      intro a ha
      rcases List.mem_append.mp ha with ha | ha
      · exact hplain a ha
      · rw [List.mem_singleton.mp ha]
        simp [Action.Plain]
    have hin' : InOrder (actions c.own ++ [.state .ready]) :=
      inOrder_concat hin (allowed_of_plain (hplain' _ (List.mem_append_right _ (List.mem_singleton.mpr rfl))))
    have hready : Admitted (actions c.own ++ [.state .ready]) :=
      ⟨⟨_, List.mem_append_left _ hheard, rfl, hauth⟩, List.mem_append_right _ (List.mem_singleton.mpr rfl)⟩
    cases hnext : nextSubscription c.own with
    | none =>
      rw [sendPendingSubscription_eq]
      rw [show nextSubscription (setState .ready (update (fun h => { h with greeting := greeting }) c)).own =
        none from hnext]
      refine ⟨by rw [hacts]; exact hin', .unsent rfl hunsent (by rw [hacts]; exact hready) ?_⟩
      rw [hacts]
      exact hplain'
    | some sub =>
      refine order_send hnext (by rw [hacts]; exact hin') rfl (by rw [hacts]; exact hready) ?_ fun hr => ?_
      · rw [hacts]
        exact not_started_of_plain hplain'
      · refine ⟨hq hstate hauth hr sub (by rw [hnext]; rfl), ?_⟩
        rw [hacts]
        exact fun a ha => (hplain' a ha).not_refuses

/-- Before the auth response is accepted, everything so far is plain. -/
theorem Stage.plain (hstage : Stage h) (hready : h.state ≠ .ready) (hstreaming : h.state ≠ .streaming) :
    h.subscriptionSent = false ∧ ∀ a ∈ actions h, a.Plain := by
  cases hstage with
  | early _ _ unsent plain => exact ⟨unsent, plain⟩
  | unsent state | sent state => exact absurd state hready
  | streaming state => exact absurd state hstreaming

theorem order_processLine {line : List Byte} (ho : Order c.own) (hs : c.own.state ≠ .streaming)
    (hq : OrderlyLine c line) : Order (processLine sha256 line c).own := by
  obtain ⟨hin, hstage⟩ := order_hear line ho
  have hplain := hstage.plain
  rw [processLine]
  cases hstate : c.own.state with
  | waitingGreeting =>
    obtain ⟨hunsent, hall⟩ := hplain (by simp [hear, record, hstate]) (by simp [hear, record, hstate])
    exact order_handleGreeting line hin hall hstate hunsent
  | waitingChallenge =>
    obtain ⟨hunsent, hall⟩ := hplain (by simp [hear, record, hstate]) (by simp [hear, record, hstate])
    exact order_handleChallenge line hin hall hstate hunsent
  | authenticating =>
    obtain ⟨hunsent, hall⟩ := hplain (by simp [hear, record, hstate]) (by simp [hear, record, hstate])
    have hheard : .heard .authenticating line ∈ actions (hear line c).own := by
      rw [actions_hear, hstate]
      exact List.mem_append_right _ (List.mem_singleton.mpr rfl)
    exact order_handleAuthResponse hin hheard hall hstate hunsent hq
  | ready => exact ⟨hin, hstage⟩
  | streaming => exact absurd hstate hs

/-! ### The stream -/

/-- What the stream does to the handshake: nothing, besides offering data to the downstream. -/
structure Aside (c d : Component CramAuth) : Prop where
  state : d.own.state = c.own.state
  subscriptionSent : d.own.subscriptionSent = c.own.subscriptionSent
  startRequested : d.own.startRequested = c.own.startRequested
  offers : ∃ more, actions d.own = actions c.own ++ more ∧ ∀ a ∈ more, a = .offered

theorem Aside.of_own {d : Component CramAuth} (hstate : d.own.state = c.own.state)
    (hsent : d.own.subscriptionSent = c.own.subscriptionSent)
    (hstart : d.own.startRequested = c.own.startRequested) (hlog : d.own.log = c.own.log) : Aside c d :=
  ⟨hstate, hsent, hstart, [], by rw [actions, actions, hlog, List.append_nil], by simp⟩

theorem Aside.refl (c : Component CramAuth) : Aside c c := .of_own rfl rfl rfl rfl

theorem Aside.trans {d e : Component CramAuth} (h : Aside c d) (h' : Aside d e) : Aside c e := by
  obtain ⟨more, hmore, hall⟩ := h.offers
  obtain ⟨more', hmore', hall'⟩ := h'.offers
  refine ⟨h'.state.trans h.state, h'.subscriptionSent.trans h.subscriptionSent,
    h'.startRequested.trans h.startRequested, more ++ more', ?_, fun a ha => ?_⟩
  · rw [hmore', hmore, List.append_assoc]
  · rcases List.mem_append.mp ha with ha | ha
    · exact hall a ha
    · exact hall' a ha

theorem aside_own {d : Component CramAuth} (hown : d.own = c.own) : Aside c d := by
  refine .of_own ?_ ?_ ?_ ?_ <;> rw [hown]

theorem aside_fail (code : ErrorCode) (message : String) (c : Component CramAuth) :
    Aside c (fail code message c) := aside_own (fail_own _ _ _)

theorem Aside.order {d : Component CramAuth} (h : Aside c d) (ho : Order c.own) : Order d.own := by
  obtain ⟨hin, hstage⟩ := ho
  obtain ⟨more, hmore, hall⟩ := h.offers
  have hplain : ∀ a ∈ more, a.Plain := fun a ha => by
    rw [hall a ha]
    exact trivial
  have hmem : ∀ {a}, a ∈ actions c.own → a ∈ actions d.own := fun ha => by
    rw [hmore]
    exact List.mem_append_left _ ha
  have hadmitted : Admitted (actions c.own) → Admitted (actions d.own) := fun hready => by
    rw [hmore]
    exact hready.append more
  have hall' : (∀ a ∈ actions c.own, a.Plain) → ∀ a ∈ actions d.own, a.Plain := by
    intro hc a ha
    rw [hmore] at ha
    rcases List.mem_append.mp ha with ha | ha
    · exact hc a ha
    · exact hplain a ha
  refine ⟨by rw [hmore]; exact inOrder_append hin hplain, ?_⟩
  cases hstage with
  | early ready streaming unsent plain =>
    rw [← h.state] at ready streaming
    exact .early ready streaming (h.subscriptionSent.trans unsent) (hall' plain)
  | unsent state unsent ready plain =>
    exact .unsent (h.state.trans state) (h.subscriptionSent.trans unsent) (hadmitted ready) (hall' plain)
  | sent state sent waiting ready tried notStarted =>
    obtain ⟨a, ha, htried⟩ := tried
    refine .sent (h.state.trans state) (h.subscriptionSent.trans sent) (h.startRequested.trans waiting)
      (hadmitted ready) ⟨a, hmem ha, htried⟩ fun hm => ?_
    rw [hmore] at hm
    rcases List.mem_append.mp hm with hm | hm
    · exact notStarted hm
    · exact absurd (hall _ hm) (by simp)
  | streaming state started => exact .streaming (h.state.trans state) (hmem started)

theorem aside_toStreaming (source : Chain) (c : Component CramAuth) : Aside c (toStreaming source c).1 := by
  rw [toStreaming]
  rcases spliceChecked_cases CramAuth.streamingChain (fun chain h => { h with streamingChain := chain })
    source c with ⟨-, he⟩ | ⟨-, -, he⟩ | ⟨-, -, he⟩
  · rw [he]
    exact .refl c
  · rw [he]
    exact aside_fail _ _ c
  · rw [he]
    exact .of_own rfl rfl rfl rfl

theorem aside_toPending (source : Chain) (c : Component CramAuth) : Aside c (toPending source c).1 := by
  rw [toPending]
  rcases spliceChecked_cases CramAuth.pendingChain (fun chain h => { h with pendingChain := chain })
    source c with ⟨-, he⟩ | ⟨-, -, he⟩ | ⟨-, -, he⟩
  · rw [he]
    exact .refl c
  · rw [he]
    exact aside_fail _ _ c
  · rw [he]
    exact .of_own rfl rfl rfl rfl

theorem aside_splicePending (c : Component CramAuth) : Aside c (splicePending c).1 :=
  (aside_toStreaming _ c).trans (.of_own rfl rfl rfl rfl)

theorem aside_done (c : Component CramAuth) : Aside c c.emitDone.requestClose :=
  aside_own (by rw [Component.requestClose_own, Component.emitDone_own])

section Deliver

variable {deliver : Component CramAuth → Component CramAuth}
  (hdeliver : ∀ c : Component CramAuth, c.own.state = .streaming → Aside c (deliver c))

include hdeliver

theorem aside_offer (hs : c.own.state = .streaming) : Aside c (offer deliver c) := by
  have hrecord : Aside c (update (fun h => { h with offers := h.offers + 1 }) (record .offered c)) :=
    ⟨rfl, rfl, rfl, [.offered], by simp [actions, record], by simp⟩
  have hcall := fun hs' => hdeliver (update (fun h => { h with offers := h.offers + 1 }) (record .offered c)) hs'
  exact hrecord.trans (hcall hs)

theorem aside_onBinaryData (data : Chain) (hs : c.own.state = .streaming) :
    Aside c (onBinaryData deliver data c).1 := by
  rw [onBinaryData]
  split
  · exact aside_toPending data c
  · have hsplice := aside_splicePending c
    rw [forwardBinaryData]
    simp only
    split
    · exact hsplice
    · have htaken := hsplice.trans (aside_toStreaming data _)
      simp only
      split
      · exact htaken.trans (aside_offer hdeliver (htaken.state.trans hs))
      · exact htaken

theorem aside_processPending (hs : c.own.state = .streaming) : Aside c (processPending deliver c) := by
  have hsplice := aside_splicePending c
  rw [processPending]
  split
  · exact hsplice
  · rw [Component.forwardData]
    split
    · exact hsplice
    · exact hsplice.trans (aside_offer hdeliver (hsplice.state.trans hs))

theorem aside_flushAndComplete (hs : c.own.state = .streaming) : Aside c (flushAndComplete deliver c) := by
  have hsplice := aside_splicePending c
  have hst := hsplice.state.trans hs
  rw [flushAndComplete]
  simp only
  cases (splicePending c).2 with
  | false => exact hsplice
  | true =>
    simp only [Bool.not_true, Bool.false_eq_true, if_false, Component.completeWithFlush,
      Component.flushPendingData]
    generalize (splicePending c).1 = a at hsplice hst
    cases a.own.streamingChain.empty with
    | true => exact hsplice.trans (aside_done a)
    | false =>
      have hoffer := hsplice.trans (aside_offer hdeliver hst)
      simp only [Bool.false_eq_true, if_false]
      generalize offer deliver a = b at hoffer
      cases b.suspended with
      | true => exact hoffer.trans (aside_own rfl)
      | false =>
        cases b.own.streamingChain.empty with
        | true => exact hoffer.trans (aside_done b)
        | false => exact hoffer.trans (aside_fail _ _ b)

theorem aside_completeDeferred (hs : c.own.state = .streaming) :
    Aside c (c.completeDeferred (flushAndComplete deliver)) := by
  rw [Component.completeDeferred]
  split
  · have hclear : Aside c c.clearDone := aside_own rfl
    exact hclear.trans (aside_flushAndComplete hdeliver hs)
  · exact .refl c

theorem aside_resume (hs : c.own.state = .streaming) : Aside c (resume deliver c) := by
  rw [resume]
  by_cases hone : c.suspendCount = 1
  · cases hclosed : c.closed with
    | true =>
      have hcount : Aside c { c with suspendCount := 0 } := aside_own rfl
      rw [Component.resume_of_closed hone hclosed]
      exact hcount.trans (aside_completeDeferred hdeliver hs)
    | false =>
      have hresumed : Aside c c.resumed := aside_own rfl
      have hprocess := hresumed.trans (aside_processPending hdeliver hs)
      have hup : Aside c (processPending deliver c.resumed).resumeUpstream := by
        refine hprocess.trans (aside_own ?_)
        rw [Component.resumeUpstream]
        split <;> rfl
      rw [Component.resume_of_eq hone hclosed]
      exact (hup.trans (aside_completeDeferred hdeliver (hup.state.trans hs))).trans
        (aside_own (Component.leave_own _))
  · rw [Component.resume_of_ne hone]
    exact aside_own rfl

theorem aside_onData (data : Chain) (hs : c.own.state = .streaming) :
    Aside c (onData deliver sha256 data c).1 := by
  have henter : Aside c c.enter := aside_own rfl
  rw [onData]
  split
  · exact .refl c
  · exact (henter.trans (aside_onBinaryData hdeliver data hs)).trans (aside_own (Component.leave_own _))

theorem aside_arrive (segments : List Segment) (hs : c.own.state = .streaming) :
    Aside c (arrive sha256 deliver segments c) := by
  have hreceive : ∀ bytes, Aside c (receive bytes c) := fun _ => .of_own rfl rfl rfl rfl
  exact (hreceive _).trans (aside_onData hdeliver _ hs)

end Deliver

/-- **The downstream**, whatever it does, leaves the handshake alone. -/
theorem aside_downstream (depth : ℕ) (hs : c.own.state = .streaming) :
    Aside c (downstream sha256 depth c) := by
  have hrel := downstream_relates sha256 (fun c d => c.own.state = .streaming → Aside c d) (fun _ => True)
    (fun c _ => .refl c) (fun _ _ _ h1 h2 h => (h1 h).trans (h2 ((h1 h).state.trans h)))
    (fun _ _ _ _ => .of_own rfl rfl rfl rfl) (fun _ _ => .of_own rfl rfl rfl rfl)
    (fun _ _ _ => .of_own rfl rfl rfl rfl) (fun c _ => aside_own (Component.suspend_own c))
    (fun deliver hd c _ h => aside_resume (fun c => hd c trivial) h)
    (fun deliver hd segments c h => aside_arrive (fun c => hd c trivial) segments h) depth (c := c) trivial
  exact hrel hs

/-! ### Calls while there is no stream -/

/-- Before the stream begins: no newline in the buffer, and nothing held. -/
structure Idle (h : CramAuth) : Prop where
  line : 10 ∉ h.lineBuffer
  streaming : h.streamingChain.empty = true
  pending : h.pendingChain.empty = true

theorem processPending_of_idle (deliver : Component CramAuth → Component CramAuth) (h : Idle c.own) :
    processPending deliver c = c := by
  rw [processPending, splicePending_of_empty h.pending]
  simp [Component.forwardData, h.streaming]

theorem completeDeferred_of_idle (deliver : Component CramAuth → Component CramAuth) (h : Idle c.own) :
    (c.completeDeferred (flushAndComplete deliver)).own = c.own := by
  rw [Component.completeDeferred]
  split
  · have hflush := flushAndComplete_of_empty (c := c.clearDone) deliver h.streaming h.pending
    rw [hflush, Component.requestClose_own, Component.emitDone_own]
    rfl
  · rfl

/-- `Resume` finds nothing to do, but for the count. -/
theorem resume_of_idle (deliver : Component CramAuth → Component CramAuth) (h : Idle c.own) :
    (resume deliver c).own = c.own := by
  rw [resume]
  by_cases hone : c.suspendCount = 1
  · cases hclosed : c.closed with
    | true =>
      rw [Component.resume_of_closed hone hclosed]
      exact completeDeferred_of_idle (c := { c with suspendCount := 0 }) deliver h
    | false =>
      have hup : c.resumed.resumeUpstream.own = c.own := by
        rw [Component.resumeUpstream]
        split <;> rfl
      have hprocess := processPending_of_idle (c := c.resumed) deliver h
      rw [Component.resume_of_eq hone hclosed, Component.leave_own, hprocess,
        completeDeferred_of_idle deliver (by rw [hup]; exact h), hup]
  · rw [Component.resume_of_ne hone]

/-- The members of the handshake. -/
structure HandshakePart where
  state : CramAuthState
  pending : Option Subscription
  subscriptionSent : Bool
  startRequested : Bool
  subCounter : ℕ
  log : List Entry

/-- What a component has of the handshake. -/
def handshakePart (h : CramAuth) : HandshakePart :=
  { state := h.state
    pending := h.pending
    subscriptionSent := h.subscriptionSent
    startRequested := h.startRequested
    subCounter := h.subCounter
    log := h.log }

/-- What happens **besides the handshake**: nothing to it, or it is over. -/
inductive Beside (c d : Component CramAuth) : Prop
  | same (part : handshakePart d.own = handshakePart c.own) (idle : Idle c.own → Idle d.own)
  | aside (streaming : c.own.state = .streaming) (aside : Aside c d)

theorem beside_own {d : Component CramAuth} (hown : d.own = c.own) : Beside c d :=
  .same (by rw [hown]) fun h => by rw [hown]; exact h

/-- What is received is besides the handshake. -/
theorem Beside.of_receive {bytes : List Byte} {d : Component CramAuth} (h : Beside (receive bytes c) d) : Beside c d := by
  cases h with
  | same part idle => exact .same part fun hi => idle ⟨hi.line, hi.streaming, hi.pending⟩
  | aside streaming aside =>
    have hreceive : Aside c (receive bytes c) := .of_own rfl rfl rfl rfl
    exact .aside streaming (hreceive.trans aside)

/-- Idle, unless streaming. -/
def AtRest (h : CramAuth) : Prop := h.state ≠ .streaming → Idle h

theorem Beside.atRest {d : Component CramAuth} (h : Beside c d) (hc : AtRest c.own) : AtRest d.own := by
  intro hs
  cases h with
  | same part idle =>
    have hstate : d.own.state = c.own.state := congrArg HandshakePart.state part
    exact idle (hc (hstate ▸ hs))
  | aside streaming aside => exact absurd (aside.state.trans streaming) hs

/-- What the handshake does leaves the chains empty. -/
theorem idle_streamPart {h h' : CramAuth} (hi : Idle h) (hpart : streamPart h' = streamPart h)
    (hline : 10 ∉ h'.lineBuffer) : Idle h' := by
  simp only [streamPart, StreamPart.mk.injEq] at hpart
  refine ⟨hline, ?_, ?_⟩
  · rw [hpart.1]
    exact hi.streaming
  · rw [hpart.2.1]
    exact hi.pending

section Besides

variable {deliver : Component CramAuth → Component CramAuth}
  (hdeliver : ∀ c : Component CramAuth, c.own.state = .streaming → Aside c (deliver c))

include hdeliver

/-- **A call of the socket** scans the lines, and the rest is besides the handshake. -/
theorem beside_onData (segments : List Segment) (h : AtRest c.own) :
    Beside c (onData deliver sha256 (chainOf segments) c).1 ∨
      (c.closed = false ∧ c.own.state ≠ .streaming ∧
        Beside (scan sha256 (segments.flatMap Segment.bytes) c.enter).1
          (onData deliver sha256 (chainOf segments) c).1) := by
  by_cases hs : c.own.state = .streaming
  · exact Or.inl (.aside hs (aside_onData hdeliver _ hs))
  cases hclosed : c.closed with
  | true =>
    left
    rw [onData, if_pos hclosed]
    exact beside_own rfl
  | false =>
    refine Or.inr ⟨rfl, hs, ?_⟩
    have hloop := textLoop_scan sha256 deliver (wf_chainOf segments) (Nat.le_refl _) (c := c.enter) (h hs).line
    rw [bytes_chainOf] at hloop
    rw [onData, hclosed]
    simp only [Bool.false_eq_true, if_false, if_neg hs, onTextData]
    cases hend : scan sha256 (segments.flatMap Segment.bytes) c.enter with
    | mk d e =>
      rw [hend] at hloop
      cases e with
      | more => exact beside_own (by rw [Component.leave_own, hloop])
      | overflow => exact beside_own (by rw [Component.leave_own, hloop])
      | streaming rest =>
        obtain ⟨data, -, -, hrest⟩ := hloop
        have hstate := scan_streaming sha256 hend
        rw [hrest, handleRemainingData]
        split
        · exact beside_own (Component.leave_own _)
        · exact .aside hstate ((aside_onBinaryData hdeliver data hstate).trans (aside_own (Component.leave_own _)))

/-- The socket delivers. -/
theorem beside_arrive (segments : List Segment) (h : AtRest c.own) :
    Beside c (arrive sha256 deliver segments c) ∨
      (c.closed = false ∧ c.own.state ≠ .streaming ∧
        Beside (scan sha256 (segments.flatMap Segment.bytes) c.enter).1 (arrive sha256 deliver segments c)) := by
  rw [arrive]
  generalize streamed sha256 (segments.flatMap Segment.bytes) c = bytes
  have hrest : AtRest (receive bytes c).own := fun hs => ⟨(h hs).line, (h hs).streaming, (h hs).pending⟩
  have hscan := scan_receive sha256 bytes (segments.flatMap Segment.bytes) c.enter
  rcases beside_onData hdeliver segments hrest with hbeside | ⟨hclosed, hs, hbeside⟩
  · exact Or.inl hbeside.of_receive
  · have henter : (receive bytes c).enter = receive bytes c.enter := rfl
    rw [henter, hscan] at hbeside
    exact Or.inr ⟨hclosed, hs, hbeside.of_receive⟩

theorem beside_onDone (c : Component CramAuth) : Beside c (onDone deliver c) := by
  rw [onDone, Component.guarded]
  split
  · exact beside_own rfl
  · split
    · exact beside_own (by rw [Component.leave_own, fail_own]; rfl)
    · rename_i hs
      have hst : c.own.state = .streaming := not_not.mp hs
      split
      · exact beside_own (Component.leave_own _)
      · have henter : Aside c c.enter := aside_own rfl
        have hflush := henter.trans (aside_flushAndComplete hdeliver hst)
        exact .aside hst (hflush.trans (aside_own (Component.leave_own _)))

theorem beside_resume (h : AtRest c.own) : Beside c (resume deliver c) := by
  by_cases hs : c.own.state = .streaming
  · exact .aside hs (aside_resume hdeliver hs)
  · exact beside_own (resume_of_idle _ (h hs))

end Besides

theorem beside_setScript (script : List (List Act)) (c : Component CramAuth) : Beside c (setScript script c) :=
  .same rfl fun h => ⟨h.line, h.streaming, h.pending⟩

/-! ### The rule of a step -/

section StepRule

variable {Inv : CramAuth → Prop} (hcongr : ∀ {h h'}, handshakePart h' = handshakePart h → Inv h → Inv h')
  (haside : ∀ {c d : Component CramAuth}, Aside c d → c.own.state = .streaming → Inv c.own → Inv d.own)

include hcongr haside

theorem Beside.preserves {d : Component CramAuth} (h : Beside c d) (hc : Inv c.own) : Inv d.own := by
  cases h with
  | same part idle => exact hcongr part hc
  | aside streaming aside => exact haside aside streaming hc

/-- **The rule of a step.**  What the calls of the user and the lines of the server preserve, the lines meeting a
condition, a step preserves. -/
theorem step_preserves {ok : Component CramAuth → List Byte → Prop}
    (hline : ∀ {c line}, Inv c.own → c.own.state ≠ .streaming → ok c line →
      Inv (processLine sha256 line (push 10 c)).own)
    (depth : ℕ) {i : Input} (hrest : AtRest c.own) (h : Inv c.own)
    (hsubscribe : ∀ p, i = .subscribe p → Inv (subscribe p c).own)
    (hstart : i = .startStreaming → Inv (startStreaming c).own)
    (hdata : ∀ segments script, i = .data segments script → c.closed = true ∨ c.own.state = .streaming ∨
      AtLines sha256 ok (segments.flatMap Segment.bytes) (setScript script c).enter) :
    Inv (step sha256 depth c i).own := by
  have hdeliver : ∀ d : Component CramAuth, d.own.state = .streaming → Aside d (downstream sha256 depth d) :=
    fun d hd => aside_downstream depth hd
  cases i with
  | data segments script =>
    have hset := beside_setScript script c
    rcases beside_arrive hdeliver segments (hset.atRest hrest) with hbeside | ⟨hclosed, hs, hbeside⟩
    · exact hbeside.preserves hcongr haside (hset.preserves hcongr haside h)
    · refine hbeside.preserves hcongr haside ?_
      have hopen : ¬ c.closed = true := fun htrue => absurd (hclosed.symm.trans htrue) (by decide)
      have hlines := ((hdata segments script rfl).resolve_left hopen).resolve_left hs
      have hbyte : ∀ b c, Inv c.own → c.own.state ≠ .streaming →
          (b = 10 → ok c (content c.own.lineBuffer)) → Inv (byteStep sha256 b c).own := by
        intro b d hd hds hok
        by_cases hb : b = 10
        · subst hb
          have hclear : handshakePart (byteStep sha256 10 d).own =
              handshakePart (processLine sha256 (content d.own.lineBuffer) (push 10 d)).own := rfl
          exact hcongr hclear (hline hd hds (hok rfl))
        · have hpush : handshakePart (push b d).own = handshakePart d.own := rfl
          rw [byteStep_of_ne sha256 hb]
          exact hcongr hpush hd
      have hover : ∀ d : Component CramAuth, Inv d.own → d.own.state ≠ .streaming →
          Inv (emitOverflow "Line buffer overflow" d).own := fun d hd _ => by
        rw [emitOverflow, fail_own]
        exact hd
      have henter : Inv (setScript script c).enter.own := hset.preserves hcongr haside h
      have hns : (setScript script c).enter.own.state ≠ .streaming := hs
      exact scan_preserves sha256 ok (fun c => Inv c.own) hbyte hover hns henter hlines
  | subscribe p => exact hsubscribe p rfl
  | startStreaming => exact hstart rfl
  | done script =>
    exact (beside_onDone hdeliver _).preserves hcongr haside ((beside_setScript script c).preserves hcongr haside h)
  | error e =>
    rw [step, Component.propagateError, Component.guarded]
    split
    · exact h
    · rw [Component.leave_own, (Component.failed _ e).own]
      exact h
  | suspend =>
    rw [step, Component.suspend_own]
    exact h
  | resume script =>
    rw [step]
    split
    · have hset := beside_setScript script c
      exact (beside_resume hdeliver (hset.atRest hrest)).preserves hcongr haside (hset.preserves hcongr haside h)
    · exact h
  | requestClose =>
    rw [step, Component.requestClose_own]
    exact h
  | runClose =>
    have hclose : handshakePart (doClose c).own = handshakePart c.own := rfl
    rw [step]
    split
    · exact hcongr hclose h
    · exact h

end StepRule

/-- **An input leaves nothing behind**, unless streaming. -/
theorem atRest_step (depth : ℕ) (i : Input) (h : AtRest c.own) : AtRest (step sha256 depth c i).own := by
  have hdeliver : ∀ d : Component CramAuth, d.own.state = .streaming → Aside d (downstream sha256 depth d) :=
    fun d hd => aside_downstream depth hd
  have hrest : ∀ {d : Component CramAuth}, d.own = c.own → AtRest d.own := fun hown => by
    rw [hown]
    exact h
  cases i with
  | data segments script =>
    have hset := (beside_setScript script c).atRest h
    rcases beside_arrive hdeliver segments hset with hbeside | ⟨-, hs, hbeside⟩
    · exact hbeside.atRest hset
    · refine hbeside.atRest fun _ => ?_
      refine idle_streamPart (hset hs) ?_ (scan_lineBuffer sha256 _ (hset hs).line)
      exact scan_keeps sha256 (P := fun d => streamPart d.own = streamPart (setScript script c).own)
        (fun _ _ hf hd => hf.trans hd) (fun _ _ _ hd => by rw [fail_own]; exact hd) rfl
  | subscribe p =>
    intro hs
    have hns : c.own.state ≠ .streaming := fun he => by
      rw [step, subscribe_eq, if_neg (by simp [he])] at hs
      exact hs he
    have hpart : streamPart (subscribe p c).own = streamPart c.own :=
      subscribe_preserves (P := fun d => streamPart d.own = streamPart c.own) (fun _ _ hf hd => hf.trans hd)
        (fun _ _ _ hd => by rw [fail_own]; exact hd) p rfl
    have hline : (subscribe p c).own.lineBuffer = c.own.lineBuffer := by
      rw [subscribe_eq]
      split
      · exact sendPendingSubscription_lineBuffer _
      · rfl
    refine idle_streamPart (h hns) hpart ?_
    rw [step, hline]
    exact (h hns).line
  | startStreaming =>
    intro hs
    rw [step, startStreaming_eq] at hs ⊢
    split at hs
    · simp [begin, setState] at hs
    · rename_i hnot
      rw [if_neg hnot]
      exact ⟨(h hs).line, (h hs).streaming, (h hs).pending⟩
  | done script => exact (beside_onDone hdeliver _).atRest ((beside_setScript script c).atRest h)
  | error e =>
    rw [step, Component.propagateError, Component.guarded]
    split
    · exact h
    · exact hrest (by rw [Component.leave_own, (Component.failed _ e).own]; rfl)
  | suspend => exact hrest (Component.suspend_own c)
  | resume script =>
    have hset := (beside_setScript script c).atRest h
    rw [step]
    split
    · exact (beside_resume hdeliver hset).atRest hset
    · exact h
  | requestClose => exact hrest (Component.requestClose_own c)
  | runClose =>
    rw [step]
    split
    · exact fun _ => ⟨List.not_mem_nil, rfl, rfl⟩
    · exact h

/-! ### Runs -/

/-- Between two inputs: in order, and idle unless streaming. -/
structure Settled (h : CramAuth) : Prop extends Order h where
  idle : h.state ≠ .streaming → Idle h

theorem settled_new (apiKey dataset : List Byte) : Settled (newCramAuth apiKey dataset).own := by
  refine ⟨⟨fun before a after he => ?_, .early ?_ ?_ rfl ?_⟩, fun _ => ⟨?_, rfl, rfl⟩⟩
  · simp [actions, newCramAuth] at he
  all_goals simp [actions, newCramAuth]

/-- The order is about the handshake. -/
theorem order_handshakePart (hpart : handshakePart h' = handshakePart h) (ho : Order h) : Order h' :=
  order_congr ho (congrArg (fun part => part.log.map Entry.action) hpart) (congrArg HandshakePart.state hpart)
    (congrArg HandshakePart.subscriptionSent hpart) (congrArg HandshakePart.startRequested hpart)

/-- **One input.** -/
theorem settled_step (depth : ℕ) {i : Input} (h : Settled c.own) (hq : Orderly sha256 c i) :
    Settled (step sha256 depth c i).own := by
  have hline : ∀ {c : Component CramAuth} {line}, Order c.own → c.own.state ≠ .streaming → OrderlyLine c line →
      Order (processLine sha256 line (push 10 c)).own := fun ho hs hok =>
    order_processLine (order_congr ho rfl rfl rfl rfl) hs hok
  refine ⟨step_preserves order_handshakePart (fun haside _ ho => haside.order ho) hline depth h.idle h.toOrder
    ?_ ?_ ?_, atRest_step depth i h.idle⟩
  · rintro p rfl
    exact order_subscribe p h.toOrder hq
  · rintro rfl
    exact order_startStreaming h.toOrder hq
  · rintro segments script rfl
    exact hq

/-- **The commands are in order.**  In every run of orderly steps: `start_session` is written at most once,
after an accepted auth response and after a subscription was written, and after no subscription that was
refused; and `Streaming` is entered only when it was written. -/
theorem commands_in_order (sha256 : List Byte → List Byte) (apiKey dataset : List Byte) (depth : ℕ)
    (inputs : List Input)
    (hq : Runs.Along (Orderly sha256) (step sha256 depth) (newCramAuth apiKey dataset) inputs) :
    let c := Runs.run (step sha256 depth) (newCramAuth apiKey dataset) inputs
    InOrder (actions c.own) ∧ (c.own.state = .streaming → .wrote startSession ∈ actions c.own) := by
  intro c
  have hsettled : Settled c.own := @Runs.run_preserves _ _ (Orderly sha256) _ (fun c => Settled c.own)
    (fun _ _ h hq => settled_step depth h hq) _ _ (settled_new apiKey dataset) hq
  refine ⟨hsettled.inOrder, fun hs => ?_⟩
  cases hsettled.stage with
  | early _ streaming _ _ => exact absurd hs streaming
  | unsent state _ _ _ => rw [state] at hs; simp at hs
  | sent state _ _ _ _ _ => rw [state] at hs; simp at hs
  | streaming _ started => exact started

/-- A subscription and a start, and then the handshake. -/
theorem commands_in_order_sample :
    let c := Runs.run (step zeroDigest 0) (newCramAuth (ascii "db-key") (ascii "XNAS.ITCH"))
      [.subscribe { symbols := ascii "SPY", schema := ascii "trades", stypeIn := ascii "raw_symbol" },
        .startStreaming, call "lsg|0.1\ncram=a\nsuccess=1|\n"]
    InOrder (actions c.own) ∧ (c.own.state = .streaming → .wrote startSession ∈ actions c.own) :=
  commands_in_order zeroDigest (ascii "db-key") (ascii "XNAS.ITCH") 0 _
    ⟨by decide +kernel, by decide +kernel, by decide +kernel, trivial⟩

/-! ### A subscription that does not fit -/

theorem not_lineFits_subscriptionLine {p : Subscription} (hp : Segment.kSize ≤ p.symbols.length) (id : ℕ) :
    lineFits (subscriptionLine p id) = false := by
  have hlen : p.symbols.length ≤ (subscriptionLine p id).length := by
    simp only [subscriptionLine, List.length_append]
    omega
  rw [lineFits, decide_eq_false_iff_not]
  omega

/-- The subscription that is queued has the symbols given. -/
theorem nextSubscription_queue (p : Subscription) (c : Component CramAuth) :
    ∃ q id, q.symbols = p.symbols ∧ nextSubscription (queue p c).own = some (subscriptionLine q id) :=
  ⟨{ p with start := p.start.filter fun start => !start.isEmpty }, (c.own.subCounter + 1) % 2 ^ 32, rfl, rfl⟩

/-- **Refused and started**: `SendLine` refuses the subscription, and `StartStreaming` goes on. -/
theorem actions_refused {p : Subscription} (hp : Segment.kSize ≤ p.symbols.length)
    (hs : c.own.state = .ready) (hstart : c.own.startRequested = false) :
    ∃ line, IsSubscription line ∧ actions (startStreaming (subscribe p c)).own =
      actions c.own ++ [.refused line] ++ [.wrote startSession] ++ [.state .streaming] := by
  obtain ⟨q, id, hq, hnext⟩ := nextSubscription_queue p c
  have hsub := isSubscription_line q id
  have hfits : lineFits (subscriptionLine q id) = false := not_lineFits_subscriptionLine (hq ▸ hp) id
  generalize subscriptionLine q id = line at hnext hsub hfits
  have hsubscribe : subscribe p c = markSent (sendLine line (countSubscription (queue p c))) := by
    rw [subscribe_eq, if_pos hs, sendPendingSubscription_eq, hnext]
    exact if_neg (by rw [show (queue p c).own.startRequested = c.own.startRequested from rfl, hstart]; simp)
  have hstate : (markSent (sendLine line (countSubscription (queue p c)))).own.state = .ready := by
    rw [markSent, update_own, sendLine_state]
    exact hs
  have hacts : actions (markSent (sendLine line (countSubscription (queue p c)))).own =
      actions c.own ++ [.refused line] := by
    have hsend := actions_sendLine line (countSubscription (queue p c))
    rw [hfits] at hsend
    exact hsend
  have hrequest : actions (requestStart (markSent (sendLine line (countSubscription (queue p c))))).own =
      actions c.own ++ [.refused line] := hacts
  refine ⟨line, hsub, ?_⟩
  rw [hsubscribe, startStreaming_eq, if_pos ⟨hstate, rfl⟩, begin, actions_setState, actions_sendLine, hrequest,
    lineFits_startSession]
  rfl

/-- `start_session` is written although no subscription was. -/
theorem started_unsubscribed {p : Subscription} (hp : Segment.kSize ≤ p.symbols.length)
    (hs : c.own.state = .ready) (hstart : c.own.startRequested = false)
    (hnone : ∀ a ∈ actions c.own, ¬a.Subscribes) :
    .wrote startSession ∈ actions (startStreaming (subscribe p c)).own ∧
      (∀ a ∈ actions (startStreaming (subscribe p c)).own, ¬a.Subscribes) ∧
      ¬InOrder (actions (startStreaming (subscribe p c)).own) := by
  obtain ⟨line, hsub, hacts⟩ := actions_refused hp hs hstart
  rw [hacts]
  refine ⟨by simp, fun a ha => ?_, fun ho => ?_⟩
  · simp only [List.mem_append, List.mem_singleton] at ha
    rcases ha with ((ha | rfl) | rfl) | rfl
    · exact hnone a ha
    · exact id
    · exact not_isSubscription_startSession
    · exact id
  · have hallowed := ho (actions c.own ++ [.refused line]) (.wrote startSession) [.state .streaming]
      (List.append_assoc _ _ _)
    exact (hallowed rfl).2.2.2 (.refused line) (List.mem_append_right _ List.mem_cons_self) hsub

/-- As many symbols as a segment has bytes. -/
def oversized : Subscription :=
  { symbols := List.replicate Segment.kSize 65, schema := ascii "trades", stypeIn := ascii "raw_symbol" }

theorem kSize_le_oversized : Segment.kSize ≤ oversized.symbols.length := by
  rewrite [oversized, List.length_replicate]
  exact Nat.le_refl _

/-- A client whose handshake was accepted. -/
def readyClient : Component CramAuth :=
  step zeroDigest 0 (newCramAuth [] []) (call "lsg|0.1\ncram=a\nsuccess=1|\n")

theorem run_subscribe_start (p : Subscription) :
    Runs.run (step zeroDigest 0) (newCramAuth [] [])
      [call "lsg|0.1\ncram=a\nsuccess=1|\n", .subscribe p, .startStreaming] =
        startStreaming (subscribe p readyClient) := by
  simp only [Runs.run_cons, Runs.run_nil]
  rw [← readyClient]
  rfl

/-- **A refused subscription, and a start.** -/
theorem not_commands_in_order :
    let c := Runs.run (step zeroDigest 0) (newCramAuth [] [])
      [call "lsg|0.1\ncram=a\nsuccess=1|\n", .subscribe oversized, .startStreaming]
    .wrote startSession ∈ actions c.own ∧ (∀ a ∈ actions c.own, ¬a.Subscribes) ∧
      ¬InOrder (actions c.own) := by
  simp only [run_subscribe_start]
  exact started_unsubscribed kSize_le_oversized (by decide +kernel) (by decide +kernel) (by decide +kernel)

end DbnPipe.Live
