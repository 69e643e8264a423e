import DbnPipe.Dbn.ParserFraming

/-!
# Terminal signals of the parser

Runs of `DbnParserComponent` under **any calls in any order**: `OnData`, `OnError`, `OnDone` and both
`OnComplete`s, each with any chain.

* `ParserCall`, `call` — the calls;
* `OneShot` — a terminal signal is the last thing the sink is told;
* `Waits` — there is nothing complete to parse in what the parser is given;
* `call_spec` — a call tells the sink at most one thing, and **nothing exactly when** the parser is finalized
  or has nothing to parse;
* `oneShot_iff` — the signals of a run are one-shot as long as nothing is told after a completion: error paths
  set the finalized flag, completion paths only read it.
-/

namespace DbnPipe.Dbn

open Layout Framing Chain

/-! ### Calls -/

/-- A call of the parser, with the caller's chain where there is one. -/
inductive ParserCall where
  | data (temp : Window Byte) (chain : Chain) (wf : WF chain)
  | error (e : Error)
  | done
  | complete
  | completeChain (chain : Chain) (wf : WF chain)

variable (D : Databento)

/-- A call reaches the parser. -/
def call (c : Component Parser) : ParserCall → Component Parser
  | .data temp chain _ => (onData D temp c chain).1
  | .error e => onError e c
  | .done => onDone c
  | .complete => onComplete c
  | .completeChain chain _ => onCompleteChain c chain

/-- `OnError` and `OnComplete` of the sink. -/
def SinkEvent.terminal : SinkEvent → Bool
  | .data _ => false
  | .error _ => true
  | .complete => true

/-- A terminal signal is the last thing that was told. -/
def OneShot (events : List SinkEvent) : Prop :=
  ∀ before ev after, events = before ++ ev :: after → ev.terminal = true → after = []

/-- What the parser is given holds nothing complete. -/
def Waits (c : Component Parser) (buf : List Byte) : Prop :=
  if c.own.metadataParsed then lookRecord c.own.dbnVersion buf = .more
  else
    match lookMetadata buf with
    | .more => True
    | .bad _ => False
    | .item version n => lookRecord version (buf.drop n) = .more

/-- The call has nothing to tell: data of which nothing is complete. -/
def Silent (c : Component Parser) : ParserCall → Prop
  | .data _ chain _ => Waits c (bytes chain)
  | _ => False

/-! ### One call -/

/-- What every call keeps: the parser is finalized exactly by an error it has told. -/
structure Guarded (c : Component Parser) : Prop where
  finalized : c.finalized = true ↔ ∃ e, SinkEvent.error e ∈ c.own.events
  version : c.own.metadataParsed = false → c.own.dbnVersion = 3

theorem drain_idle_iff (version : Byte) (buf : List Byte) :
    (drain (recordFramer version) buf).items = [] ∧ (drain (recordFramer version) buf).error = none ↔
      lookRecord version buf = .more := by
  cases hl : lookRecord version buf with
  | more => simp [drain_more (recordFramer version) (show (recordFramer version).look buf = _ from hl)]
  | bad msg => simp [drain_bad (recordFramer version) (show (recordFramer version).look buf = _ from hl)]
  | item rec n => simp [drain_item (recordFramer version) (show (recordFramer version).look buf = _ from hl)]

/-- The framing parser that stands where the parser stands. -/
def standing (c : Component Parser) (buf : List Byte) : Progress Byte Byte String :=
  ⟨if c.own.metadataParsed then some c.own.dbnVersion else none, buf, none⟩

/-- Nothing is taken off and no error is met exactly when the parser has to wait. -/
theorem waits_iff (c : Component Parser) (buf : List Byte) :
    (feed metadataPreamble recordFramer (standing c buf) []).1 = [] ∧
        (feed metadataPreamble recordFramer (standing c buf) []).2.error = none ↔ Waits c buf := by
  rw [Waits]
  cases hm : c.own.metadataParsed with
  | true =>
    simp only [feed, standing, hm, if_true, List.append_nil, enter]
    exact drain_idle_iff c.own.dbnVersion buf
  | false =>
    have hlook : metadataPreamble.look buf = lookMetadata buf := rfl
    simp only [feed, standing, hm, Bool.false_eq_true, if_false, List.append_nil, hlook]
    cases hl : lookMetadata buf with
    | more => simp
    | bad msg => simp
    | item version n => exact drain_idle_iff version (buf.drop n)

theorem call_finalized {c : Component Parser} (h : c.finalized = true) (k : ParserCall) :
    call D c k = c := by
  cases k with
  | data temp chain wf => rw [call, onData, if_pos h]
  | error e => rw [call, onError, if_pos h]
  | done => rw [call, onDone, onComplete, if_pos h]
  | complete => rw [call, onComplete, if_pos h]
  | completeChain chain wf => rw [call, onCompleteChain, if_pos h]

theorem not_error_of_not_finalized {c : Component Parser} (hg : Guarded c) (h : c.finalized = false) :
    ¬∃ e, SinkEvent.error e ∈ c.own.events := by
  intro he
  rw [hg.finalized.mpr he] at h
  exact absurd h (by decide)

/-- An error is told, and finalizes. -/
theorem guarded_tell_error {c : Component Parser} (hg : Guarded c) (e : Error) :
    Guarded (tell (.error e) { c with finalized := true }) :=
  ⟨iff_of_true rfl ⟨e, List.mem_append_right _ (List.mem_singleton_self _)⟩, hg.version⟩

/-- Anything else is told and leaves the flag. -/
theorem guarded_tell {c : Component Parser} (hg : Guarded c) {ev : SinkEvent}
    (hev : ∀ e, ev ≠ .error e) : Guarded (tell ev c) := by
  refine ⟨hg.finalized.trans ?_, hg.version⟩
  refine exists_congr fun e => ⟨List.mem_append_left _, fun h => ?_⟩
  rcases List.mem_append.mp h with h | h
  · exact h
  · exact absurd (List.mem_singleton.mp h).symm (hev e)

/-- Data for a parser that is not finalized. -/
theorem call_data {c : Component Parser} (hg : Guarded c) (hf : c.finalized = false) (temp : Window Byte)
    {chain : Chain} (hwf : WF chain) :
    Guarded (onData D temp c chain).1 ∧
      (Waits c (bytes chain) → (onData D temp c chain).1.own.events = c.own.events) ∧
      (¬Waits c (bytes chain) →
        ∃ ev, (onData D temp c chain).1.own.events = c.own.events ++ [ev]) := by
  have htracks : Tracks c chain (standing c (bytes chain)) := ⟨hwf, rfl, hf, rfl, hg.version⟩
  obtain ⟨h1, -, h3⟩ := onData_spec D htracks temp
  obtain ⟨told, hev, htold⟩ := h3 rfl
  have hwaits := waits_iff c (bytes chain)
  have hfin := h1.finalized
  have hno := not_error_of_not_finalized hg hf
  generalize (feed metadataPreamble recordFramer (standing c (bytes chain)) []).1 = items at *
  generalize (feed metadataPreamble recordFramer (standing c (bytes chain)) []).2.error = error at *
  cases htold with
  | nothing hnil =>
    rw [List.append_nil] at hev
    refine ⟨⟨?_, h1.version⟩, fun _ => hev, fun hnot => absurd (hwaits.mp ⟨hnil, rfl⟩) hnot⟩
    rw [hfin, hev]
    exact iff_of_false (by simp) hno
  | batch hne hrefs =>
    rename_i refs
    refine ⟨⟨?_, h1.version⟩, fun hw => ?_, fun _ => ⟨_, hev⟩⟩
    · rw [hfin, hev]
      refine iff_of_false (by simp) fun ⟨e, he⟩ => ?_
      rcases List.mem_append.mp he with he | he
      · exact hno ⟨e, he⟩
      · simp at he
    · rw [(hwaits.mpr hw).1, List.forall₂_nil_left_iff] at hrefs
      exact absurd hrefs hne
  | error msg =>
    refine ⟨⟨?_, h1.version⟩, fun hw => ?_, fun _ => ⟨_, hev⟩⟩
    · rw [hfin, hev]
      exact iff_of_true rfl ⟨_, List.mem_append_right _ (List.mem_singleton_self _)⟩
    · exact absurd (hwaits.mpr hw).2 (by simp)

/-- **What a call tells the sink**: nothing where the parser is finalized or has nothing to parse, one thing
otherwise. -/
theorem call_spec {c : Component Parser} (hg : Guarded c) (k : ParserCall) :
    Guarded (call D c k) ∧
      (c.finalized = true ∨ Silent c k → (call D c k).own.events = c.own.events) ∧
      (c.finalized = false → ¬Silent c k → ∃ ev, (call D c k).own.events = c.own.events ++ [ev]) := by
  cases hf : c.finalized with
  | true =>
    rw [call_finalized D hf]
    exact ⟨hg, fun _ => rfl, fun h => absurd h (by simp)⟩
  | false =>
    have hcomplete : Guarded (tell .complete c) := guarded_tell hg fun _ => SinkEvent.noConfusion
    cases k with
    | data temp chain wf =>
      obtain ⟨h1, h2, h3⟩ := call_data D hg hf temp wf
      exact ⟨h1, fun h => h2 (h.resolve_left (by simp)), fun _ => h3⟩
    | error e =>
      rw [call, onError, hf, if_neg (by simp)]
      exact ⟨guarded_tell_error hg e, fun h => absurd h (by simp [Silent]), fun _ _ => ⟨_, rfl⟩⟩
    | done =>
      rw [call, onDone, onComplete, hf, if_neg (by simp)]
      exact ⟨hcomplete, fun h => absurd h (by simp [Silent]), fun _ _ => ⟨_, rfl⟩⟩
    | complete =>
      rw [call, onComplete, hf, if_neg (by simp)]
      exact ⟨hcomplete, fun h => absurd h (by simp [Silent]), fun _ _ => ⟨_, rfl⟩⟩
    | completeChain chain wf =>
      rw [call, onCompleteChain, hf, if_neg (by simp)]
      by_cases he : chain.empty = true
      · rw [if_neg (by simp [he])]
        exact ⟨hcomplete, fun h => absurd h (by simp [Silent]), fun _ _ => ⟨_, rfl⟩⟩
      · rw [if_pos (by simp [he]), reportTerminalError, hf, if_neg (by simp)]
        exact ⟨guarded_tell_error hg _, fun h => absurd h (by simp [Silent]), fun _ _ => ⟨_, rfl⟩⟩

/-! ### Runs -/

theorem oneShot_nil : OneShot [] := by
  intro before ev after h _
  simp at h

/-- What was one-shot before the last thing told. -/
theorem OneShot.of_append {es es' : List SinkEvent} (h : OneShot (es ++ es')) : OneShot es := by
  intro before ev after hes hev
  have hafter := h before ev (after ++ es') (by rw [hes, List.append_assoc]; rfl) hev
  exact (List.append_eq_nil_iff.mp hafter).1

/-- One more thing may be told exactly when no terminal signal has been. -/
theorem oneShot_concat_iff (es : List SinkEvent) (ev : SinkEvent) :
    OneShot (es ++ [ev]) ↔ ∀ ev' ∈ es, ev'.terminal = false := by
  constructor
  · intro h ev' hmem
    obtain ⟨before, after, rfl⟩ := List.append_of_mem hmem
    by_contra hterm
    have hnil := h before ev' (after ++ [ev]) (by rw [List.append_assoc]; rfl)
      (eq_true_of_ne_false hterm)
    simp at hnil
  · intro h before ev' after heq hterm
    rcases List.eq_nil_or_concat after with rfl | ⟨l, x, rfl⟩
    · rfl
    · rw [List.concat_eq_append, ← List.cons_append, ← List.append_assoc] at heq
      have hes := (List.append_inj' heq rfl).1
      have hmem : ev' ∈ es := by rw [hes]; exact List.mem_append_right _ List.mem_cons_self
      rw [h ev' hmem] at hterm
      exact absurd hterm (by simp)

/-- There is at most one terminal signal. -/
theorem OneShot.unique {es : List SinkEvent} (h : OneShot es) {ev ev' : SinkEvent} (hmem : ev ∈ es)
    (hmem' : ev' ∈ es) (hev : ev.terminal = true) (hev' : ev'.terminal = true) : ev = ev' := by
  obtain ⟨before, after, rfl⟩ := List.append_of_mem hmem
  obtain rfl := h before ev after rfl hev
  rcases List.mem_append.mp hmem' with hm | hm
  · have hnone := (oneShot_concat_iff before ev).mp h ev' hm
    rw [hnone] at hev'
    exact absurd hev' (by simp)
  · exact (List.mem_singleton.mp hm).symm

/-- After a completion only calls that have nothing to tell. -/
def Quiet (c : Component Parser) (k : ParserCall) : Prop :=
  SinkEvent.complete ∈ c.own.events → Silent c k

theorem not_terminal_iff {c : Component Parser} (hg : Guarded c) :
    (∀ ev ∈ c.own.events, ev.terminal = false) ↔
      c.finalized = false ∧ SinkEvent.complete ∉ c.own.events := by
  constructor
  · intro h
    refine ⟨?_, fun hmem => absurd (h _ hmem) (by simp [SinkEvent.terminal])⟩
    by_contra hf
    obtain ⟨e, he⟩ := hg.finalized.mp (eq_true_of_ne_false hf)
    exact absurd (h _ he) (by simp [SinkEvent.terminal])
  · rintro ⟨hf, hc⟩ ev hmem
    cases ev with
    | data batch => rfl
    | error e => exact absurd ⟨e, hmem⟩ (not_error_of_not_finalized hg hf)
    | complete => exact absurd hmem hc

/-- One call keeps the signals one-shot exactly when it is quiet. -/
theorem oneShot_call_iff {c : Component Parser} (hg : Guarded c) (hs : OneShot c.own.events)
    (k : ParserCall) : OneShot (call D c k).own.events ↔ Quiet c k := by
  obtain ⟨-, h2, h3⟩ := call_spec D hg k
  by_cases hsilent : c.finalized = true ∨ Silent c k
  · rw [h2 hsilent]
    refine iff_of_true hs fun hc => ?_
    rcases hsilent with hf | hk
    · -- an error and a completion have both been told
      obtain ⟨e, he⟩ := hg.finalized.mp hf
      exact absurd (hs.unique he hc rfl rfl) (by simp)
    · exact hk
  · obtain ⟨hf, hk⟩ := not_or.mp hsilent
    obtain ⟨ev, hev⟩ := h3 (eq_false_of_ne_true hf) hk
    rw [hev, oneShot_concat_iff, not_terminal_iff hg, Quiet]
    exact ⟨fun h hc => absurd hc h.2, fun h => ⟨eq_false_of_ne_true hf, fun hc => hk (h hc)⟩⟩

/-- The parser after some calls. -/
def callAll (ks : List ParserCall) : Component Parser := Runs.run (call D) { own := {} } ks

/-- What has been told stays told. -/
theorem run_events {c : Component Parser} (hg : Guarded c) (ks : List ParserCall) :
    ∃ told, (Runs.run (call D) c ks).own.events = c.own.events ++ told := by
  induction ks generalizing c with
  | nil => exact ⟨[], (List.append_nil _).symm⟩
  | cons k ks ih =>
    obtain ⟨hg', h2, h3⟩ := call_spec D hg k
    obtain ⟨told, htold⟩ := ih hg'
    rw [Runs.run_cons, htold]
    by_cases hsilent : c.finalized = true ∨ Silent c k
    · exact ⟨told, by rw [h2 hsilent]⟩
    · obtain ⟨hf, hk⟩ := not_or.mp hsilent
      obtain ⟨ev, hev⟩ := h3 (eq_false_of_ne_true hf) hk
      exact ⟨ev :: told, by rw [hev, List.append_assoc]; rfl⟩

theorem run_oneShot_iff {c : Component Parser} (hg : Guarded c) (hs : OneShot c.own.events)
    (ks : List ParserCall) :
    OneShot (Runs.run (call D) c ks).own.events ↔ Runs.Along Quiet (call D) c ks := by
  induction ks generalizing c with
  | nil => exact iff_of_true hs trivial
  | cons k ks ih =>
    obtain ⟨hg', h2, h3⟩ := call_spec D hg k
    by_cases hone : OneShot (call D c k).own.events
    · rw [Runs.run_cons, ih hg' hone, Runs.Along, ← oneShot_call_iff D hg hs k, and_iff_right hone]
    · refine iff_of_false (fun h => hone ?_) fun h => hone ((oneShot_call_iff D hg hs k).mpr h.1)
      obtain ⟨told, htold⟩ := run_events D hg' ks
      rw [Runs.run_cons, htold] at h
      exact h.of_append

/-- **When the parser gives one terminal signal.**  Under any calls in any order, a terminal signal is the
last thing the sink is told if and only if the calls after a completion bring nothing to tell. -/
theorem oneShot_iff (ks : List ParserCall) :
    OneShot (callAll D ks).own.events ↔ Runs.Along Quiet (call D) { own := {} } ks :=
  run_oneShot_iff D ⟨iff_of_false (by simp) (by simp), fun _ => rfl⟩ oneShot_nil ks

/-- **Completion is not one-shot**: `OnDone` and then `OnComplete` are two terminal signals. -/
theorem not_oneShot : ¬OneShot (callAll databentoCpp [.done, .complete]).own.events := by
  intro h
  have hnil := h [] .complete [.complete] rfl rfl
  simp at hnil

end DbnPipe.Dbn
