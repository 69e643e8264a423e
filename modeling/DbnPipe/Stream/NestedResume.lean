import DbnPipe.Stream.NestedCalls
import DbnPipe.Stream.NestedReceived

/-!
# Suspend and Resume inside OnData

What the decoder is fed, over whole runs, where the downstream and the upstream call back.

* `Resting`, `Drained` — what holds outside of a `DecompressChain`: what was not fed is pending, and that only
  while suspended;
* `Sound` — what this needs of the downstream's `OnData`, **inside and outside of a `DecompressChain`**;
  `sound_downstream` — and what `downstream` gives it at every depth;
* `fed_once` — the theorem; `fed_twice` — a nested `Resume` that feeds one frame twice and skips the next.
-/

namespace DbnPipe.Zstd.Nested

variable {Z : ZstdDecoder} {c d e : Stage Z} {rest : List Byte}

/-! ### Between the calls -/

/-- What holds outside of a `DecompressChain`: of an open component, what was not fed is pending. -/
structure Resting (c : Stage Z) : Prop where
  tidy : Tidy c
  fed : c.own.fed <+: c.own.received
  owed : c.closed = false → Feeding (Chain.bytes c.own.pendingInput) c ∧ Chain.bytes c.own.input = []

/-- Moreover, it is pending only while suspended. -/
structure Drained (c : Stage Z) : Prop extends Resting c where
  drained : c.closed = false → c.suspended = false → Chain.bytes c.own.pendingInput = []

theorem Feeding.fed (h : Feeding rest c) : c.own.fed <+: c.own.received := ⟨rest, h.input⟩

theorem Resting.of_outside (h : Resting c) (ho : Outside c d) : Resting d := by
  refine ⟨ho.tidy h.tidy, ?_, fun hc => ?_⟩
  · rw [ho.same.fed, ho.same.received]
    exact h.fed
  · have hopen : c.closed = false := Bool.eq_false_iff.mpr fun hf => by simp [ho.closed hf] at hc
    obtain ⟨hfeed, hnil⟩ := h.owed hopen
    rw [ho.same.pendingInput, ho.same.input]
    exact ⟨hfeed.of_same ho.same, hnil⟩

theorem drained_of_closed (h : Resting c) (hc : c.closed = true) : Drained c :=
  ⟨h, fun ho => absurd (hc.symm.trans ho) (by simp)⟩

theorem drained_of_suspended (h : Resting c) (hs : c.suspended = true) : Drained c :=
  ⟨h, fun _ hf => absurd (hs.symm.trans hf) (by simp)⟩

theorem Drained.of_outside (h : Drained c) (ho : Outside c d) (hs : c.suspended = true → d.suspended = true) :
    Drained d := by
  refine ⟨h.toResting.of_outside ho, fun hc hs' => ?_⟩
  have hopen : c.closed = false := Bool.eq_false_iff.mpr fun hf => by simp [ho.closed hf] at hc
  rw [ho.same.pendingInput]
  exact h.drained hopen (Bool.eq_false_iff.mpr fun hf => by simp [hs hf] at hs')

theorem drained_fail (code : ErrorCode) (message : String) (h : Resting c) : Drained (fail code message c) :=
  drained_of_closed (h.of_outside (outside_fail _ _ c)) (fail_closed _ _ c)

theorem drained_done (h : Resting c) : Drained c.emitDone.requestClose :=
  drained_of_closed (h.of_outside (outside_done c)) (Component.requestClose_closed _)

theorem drained_deferOnDone (h : Resting c) (hs : c.suspended = true) : Drained c.deferOnDone :=
  drained_of_suspended (h.of_outside (outside_deferOnDone c)) hs

theorem drained_leave (h : Drained c) : Drained c.leave :=
  h.of_outside (outside_leave c) fun hs => by rw [Component.leave_suspended, hs]

/-- A closed component that was fed something. -/
theorem resting_of_closed (ht : Tidy c) (h : Feeding rest c) (hc : c.closed = true) : Resting c :=
  ⟨ht, h.fed, fun ho => absurd (hc.symm.trans ho) (by simp)⟩

/-- What this needs of the downstream's `OnData`. -/
structure Sound (D : Bool → Stage Z → Stage Z) : Prop where
  onward : ∀ busy c, Onward c (D busy c)
  undisturbed : ∀ c, Undisturbed c (D true c)
  resting : ∀ c, Resting c → ¬Marked (D false c) → Resting (D false c)

section Rests

variable {D : Bool → Stage Z → Stage Z} (hd : Sound D)
include hd

omit hd in
/-- The rest of a decompressed `pending_input_` is pending, and only while suspended. -/
theorem drained_fed {r : Stage Z × DecompressResult} (h : Fed .pending c r) (ht : Tidy r.1)
    (hi : Chain.bytes c.own.input = []) : Drained r.1 := by
  obtain ⟨d, outcome⟩ := r
  obtain ⟨⟨rest, hfeed⟩, hleft, hcomplete, hother, hstops⟩ := h
  have hinput : Chain.bytes d.own.input = [] := by
    have hsame : d.own.input = c.own.input := hother
    rw [hsame]
    exact hi
  cases outcome with
  | complete =>
    have hleft' := hleft (by simp)
    exact ⟨⟨ht, hleft'.fed, fun _ => ⟨hleft', hinput⟩⟩, fun _ _ => hcomplete rfl⟩
  | suspended =>
    have hleft' := hleft (by simp)
    exact drained_of_suspended ⟨ht, hleft'.fed, fun _ => ⟨hleft', hinput⟩⟩ hstops
  | error => exact drained_of_closed (resting_of_closed ht hfeed hstops) hstops

/-- `ProcessPendingData`. -/
theorem drained_processPendingData (h : Resting c) (hm : ¬Marked (processPendingData (D true) c).1) :
    Drained (processPendingData (D true) c).1 ∧
      Stops (processPendingData (D true) c).1 (processPendingData (D true) c).2 := by
  have ht := (onward_processPendingData (hd.onward true) c).tidy h.tidy
  rw [processPendingData] at hm ht ⊢
  cases hskip : c.closed || c.own.pendingInput.empty with
  | true =>
    refine ⟨⟨h, fun hc _ => ?_⟩, trivial⟩
    have hopen : c.closed = false := hc
    rw [hopen, Bool.false_or] at hskip
    exact (Chain.empty_iff (h.owed hopen).1.wfPending).mp hskip
  | false =>
    rw [hskip, if_neg Bool.false_ne_true] at hm ht
    obtain ⟨hfeed, hinput⟩ := h.owed (Bool.or_eq_false_iff.mp hskip).1
    have hfed := decompressChain_feeds hd.undisturbed .pending hfeed hm
    exact ⟨drained_fed hfed ht hinput, hfed.stops⟩

/-- The common end of `OnDone` and `FlushAndComplete`. -/
theorem drained_complete (h : Resting c) (hm : ¬Marked (complete (D false) c)) : Drained (complete (D false) c) := by
  rw [complete] at hm ⊢
  by_cases hresult : c.own.lastDecompressResult ≠ 0
  · rw [if_pos hresult]
    exact drained_fail _ _ h
  rw [if_neg hresult] at hm ⊢
  simp only [Component.completeWithFlush, Component.flushPendingData] at hm ⊢
  cases he : c.own.outputChain.empty with
  | true => exact drained_done h
  | false =>
    have hdeliver := hd.resting c h
    simp only [he, Bool.false_eq_true, if_false] at hm ⊢
    generalize D false c = d at hm hdeliver
    cases hs : d.suspended with
    | true =>
      rw [hs] at hm
      exact drained_deferOnDone (hdeliver ((outside_deferOnDone d).unmarked hm)) hs
    | false =>
      rw [hs] at hm
      cases hde : d.own.outputChain.empty with
      | true =>
        rw [hde] at hm
        exact drained_done (hdeliver ((outside_done d).unmarked hm))
      | false =>
        rw [hde] at hm
        exact drained_fail .parseError _ (hdeliver ((outside_fail .parseError _ d).unmarked hm))

theorem drained_processPendingIn (h : Resting c) (hm : ¬Marked (processPendingIn D false c)) :
    Drained (processPendingIn D false c) := by
  have hforward : ¬Marked (c.forwardData ZstdDecompressor.outputChain (D false)).1 →
      Resting (c.forwardData ZstdDecompressor.outputChain (D false)).1 := by
    rw [Component.forwardData]
    split
    · exact fun _ => h
    · exact hd.resting c h
  have hsuspended := forwardData_suspended (D false) c
  rw [processPendingIn] at hm ⊢
  simp only [enterPending_false] at hm ⊢
  generalize c.forwardData ZstdDecompressor.outputChain (D false) = r at hm hforward hsuspended
  obtain ⟨d, again⟩ := r
  cases again with
  | true => exact drained_of_suspended (hforward hm) (hsuspended rfl)
  | false =>
    have hrest := hforward ((onward_processPendingData (hd.onward true) d).unmarked hm)
    exact (drained_processPendingData hd hrest hm).1

theorem drained_flushAndCompleteIn (h : Resting c) (hm : ¬Marked (flushAndCompleteIn D false c)) :
    Drained (flushAndCompleteIn D false c) := by
  have hpending := drained_processPendingData hd h
  rw [flushAndCompleteIn] at hm ⊢
  simp only [enterPending_false] at hm ⊢
  generalize processPendingData (D true) c = r at hm hpending
  obtain ⟨d, outcome⟩ := r
  cases outcome with
  | error => exact (hpending hm).1
  | suspended =>
    obtain ⟨hdrained, hstops⟩ := hpending ((outside_deferOnDone d).unmarked hm)
    exact drained_deferOnDone hdrained.toResting hstops
  | complete =>
    have hdrained := (hpending (((rule_onward hd.onward false).complete d).unmarked hm)).1
    exact drained_complete hd hdrained.toResting hm

omit hd in
theorem suspended_copyToPendingInput (fuel : ℕ) (c : Stage Z) :
    (copyToPendingInput fuel c).suspended = c.suspended := by
  induction fuel generalizing c with
  | zero => rfl
  | succ fuel ih =>
    rw [copyToPendingInput]
    split
    · rfl
    · split
      · rw [Component.suspended, Component.suspended, fail, (c.failed _).suspendCount]
      · rw [ih]
        rfl

omit hd in
/-- `CopyToPendingInput`: the rest of the caller's chain is pending. -/
theorem resting_copyToPendingInput {fuel : ℕ} (hfuel : c.own.input.size ≤ fuel) (ht : Tidy c)
    (h : Feeding (Chain.bytes c.own.pendingInput ++ Chain.bytes c.own.input) c) :
    Resting (copyToPendingInput fuel c) := by
  refine copyToPendingInput_preserves
    (P := fun d => Tidy d ∧ Feeding (Chain.bytes d.own.pendingInput ++ Chain.bytes d.own.input) d)
    (Q := Resting) ?_ ?_ ?_ ?_ hfuel ⟨ht, h⟩
  · rintro d ⟨-, hfeed⟩
    exact hfeed.wfInput
  · rintro d ⟨htidy, hfeed⟩ hnil
    refine ⟨htidy, hfeed.fed, fun _ => ⟨?_, hnil⟩⟩
    rw [hnil, List.append_nil] at hfeed
    exact hfeed
  · rintro d ⟨htidy, hfeed⟩
    have hfail := outside_fail .decompressionError "Decompressor input buffer overflow" d
    exact resting_of_closed (hfail.tidy htidy) (hfeed.of_same hfail.same) (fail_closed _ _ d)
  · rintro d n seg ⟨htidy, hfeed⟩ hseg
    refine ⟨(onward_moveInput n seg d).tidy htidy, ?_⟩
    rw [bytes_moveInput hfeed.wfPending hfeed.wfInput hseg]
    exact ⟨hfeed.input, hfeed.alive, Chain.wf_appended hfeed.wfPending seg, Chain.wf_consumed hfeed.wfInput n⟩

/-- `OnData` under its guard, the new bytes being received. -/
theorem drained_dataBody (ht : Tidy c) (h : Feeding (Chain.bytes c.own.pendingInput ++ Chain.bytes c.own.input) c)
    (hm : ¬Marked (dataBody (D true) c)) : Drained (dataBody (D true) c) := by
  have hon := hd.onward true
  rw [dataBody] at hm ⊢
  cases he : c.own.pendingInput.empty with
  | false =>
    simp only [he, Bool.not_false, if_true] at hm ⊢
    split
    · have hfail := outside_fail .decompressionError "Decompressor input buffer overflow" c
      have hclosed := fail_closed .decompressionError "Decompressor input buffer overflow" c
      exact drained_of_closed (resting_of_closed (hfail.tidy ht) (h.of_same hfail.same) hclosed) hclosed
    · rename_i hover
      rw [if_neg hover] at hm
      obtain ⟨h1, h2, h3, h4⟩ := Chain.compactAndSplice_spec h.wfPending h.wfInput
      have hbytes : Chain.bytes (spliceInput c).own.pendingInput =
          Chain.bytes c.own.pendingInput ++ Chain.bytes c.own.input := h2
      have hsplice : Feeding (Chain.bytes (spliceInput c).own.pendingInput) (spliceInput c) := by
        rw [hbytes]
        exact ⟨h.input, h.alive, h1, h3⟩
      have htidy : Tidy (spliceInput c) := ht
      have hfed := decompressChain_feeds hd.undisturbed .pending hsplice hm
      exact drained_fed hfed ((onward_decompressChain hon .pending _).tidy htidy) h4
  | true =>
    have hnil := (Chain.empty_iff h.wfPending).mp he
    have hinput : Feeding (Chain.bytes (Source.input.get c.own)) c := by
      rw [hnil, List.nil_append] at h
      exact h
    have hfeeds := decompressChain_feeds hd.undisturbed .input hinput
    have htidy := (onward_decompressChain hon .input c).tidy ht
    simp only [he, Bool.not_true, Bool.false_eq_true, if_false] at hm ⊢
    generalize decompressChain (D true) .input c = r at hm hfeeds htidy
    obtain ⟨d, outcome⟩ := r
    have hunmarked : ¬Marked d := by
      split at hm
      · exact hm
      · split at hm
        · exact (onward_copyToPendingInput _ d).unmarked hm
        · exact hm
    obtain ⟨⟨rest, hfed⟩, hleft, hcomplete, hother, hstops⟩ := hfeeds hunmarked
    have hpending : Chain.bytes d.own.pendingInput = [] := by
      have hsame : d.own.pendingInput = c.own.pendingInput := hother
      rw [hsame]
      exact hnil
    cases outcome with
    | error =>
      exact drained_of_closed (resting_of_closed htidy hfed hstops) hstops
    | complete =>
      have hdone : Chain.bytes d.own.input = [] := hcomplete rfl
      have hleft' := hleft (by simp)
      have hfeed : Feeding (Chain.bytes d.own.pendingInput) d := by
        rw [hpending, ← hdone]
        exact hleft'
      rw [if_neg (by simp), (Chain.empty_iff hleft'.wfInput).mpr hdone]
      exact ⟨⟨htidy, hleft'.fed, fun _ => ⟨hfeed, hdone⟩⟩, fun _ _ => hpending⟩
    | suspended =>
      have hleft' := hleft (by simp)
      have hfeed : Feeding (Chain.bytes d.own.pendingInput ++ Chain.bytes d.own.input) d := by
        rw [hpending]
        exact hleft'
      rw [if_neg (by simp)]
      split
      · exact drained_of_suspended (resting_copyToPendingInput (Nat.le_refl _) htidy hfeed)
          ((suspended_copyToPendingInput _ d).trans hstops)
      · rename_i hempty
        have hnone : Chain.bytes d.own.input = [] := (Chain.empty_iff hleft'.wfInput).mp (by simpa using hempty)
        rw [hnone, List.append_nil] at hfeed
        exact drained_of_suspended ⟨htidy, hfeed.fed, fun _ => ⟨hfeed, hnone⟩⟩ hstops

theorem drained_dataIn (segments : List Segment) (h : Drained c) (hm : ¬Marked (dataIn D false segments c)) :
    Drained (dataIn D false segments c) := by
  rw [dataIn, Component.guarded] at hm ⊢
  cases hc : c.closed with
  | true => exact h
  | false =>
    simp only [hc, Bool.false_eq_true, if_false, dataBodyIn] at hm ⊢
    obtain ⟨hfeed, hnil⟩ := h.owed hc
    obtain ⟨hwf, hbytes⟩ := Chain.appendAll_spec hfeed.wfInput segments
    have hmore : Feeding (Chain.bytes (receiveMore segments c.enter).own.pendingInput ++
        Chain.bytes (receiveMore segments c.enter).own.input) (receiveMore segments c.enter) := by
      refine ⟨?_, hfeed.alive, hfeed.wfPending, hwf⟩
      simp only [receiveMore, update, Component.enter_own, hbytes, hnil, List.nil_append]
      rw [← List.append_assoc, hfeed.input]
    exact drained_leave (drained_dataBody hd h.tidy hmore ((outside_leave _).unmarked hm))

theorem drained_doneIn (h : Drained c) (hm : ¬Marked (doneIn D false c)) : Drained (doneIn D false c) := by
  rw [doneIn, Component.guarded] at hm ⊢
  cases hc : c.closed with
  | true => exact h
  | false =>
    have henter := h.toResting.of_outside (outside_enter c)
    simp only [hc, Bool.false_eq_true, if_false, doneBodyIn_eq D false (c := c.enter) hc] at hm ⊢
    have hm' := (outside_leave _).unmarked hm
    cases hs : c.enter.suspended with
    | true => exact drained_leave (drained_deferOnDone henter hs)
    | false =>
      rw [hs] at hm'
      exact drained_leave (drained_flushAndCompleteIn hd henter hm')

theorem drained_deliverIn (x : Delivery) (h : Drained c) (hm : ¬Marked (deliverIn D false x c)) :
    Drained (deliverIn D false x c) := by
  cases x with
  | data segments =>
    have hgive := h.of_outside (outside_give segments c) fun hs => by
      rw [give]
      split <;> exact hs
    exact drained_dataIn hd segments hgive hm
  | done => exact drained_doneIn hd h hm
  | error err =>
    refine h.of_outside (outside_propagateError err c) fun hs => ?_
    rw [deliverIn, Component.propagateError, Component.guarded]
    split
    · exact hs
    · rw [Component.leave_suspended, Component.suspended, (c.enter.failed err).suspendCount]
      exact hs

theorem drained_deliverAll {deliveries : List Delivery} (h : Drained c)
    (hm : ¬Marked (deliverAll D false deliveries c)) : Drained (deliverAll D false deliveries c) := by
  induction deliveries generalizing c with
  | nil => exact h
  | cons x deliveries ih =>
    have hrest := ((rule_onward hd.onward false).deliverAll deliveries (deliverIn D false x c)).unmarked hm
    exact ih (drained_deliverIn hd x h hrest) hm

theorem drained_resumeUpstreamIn (deliveries : List Delivery) (h : Drained c)
    (hm : ¬Marked (resumeUpstreamIn D false deliveries c)) : Drained (resumeUpstreamIn D false deliveries c) := by
  rw [resumeUpstreamIn] at hm ⊢
  cases hs : c.suspended with
  | true => exact h
  | false =>
    rw [hs] at hm
    have hup := h.of_outside (outside_resumeUpstream c) fun hf => absurd (hs.symm.trans hf) (by simp)
    exact drained_deliverAll hd hup hm

theorem drained_completeDeferred (h : Drained c)
    (hm : ¬Marked (c.completeDeferred (flushAndCompleteIn D false))) :
    Drained (c.completeDeferred (flushAndCompleteIn D false)) := by
  rw [Component.completeDeferred] at hm ⊢
  split
  · rename_i hcond
    rw [if_pos hcond] at hm
    exact drained_flushAndCompleteIn hd (h.toResting.of_outside (outside_clearDone c)) hm
  · exact h

/-- **`Resume`** outside of a `DecompressChain`. -/
theorem drained_resumeIn (deliveries : List Delivery) (h : Resting c) (hs : c.suspended = true)
    (hm : ¬Marked (resumeIn D false deliveries c)) : Drained (resumeIn D false deliveries c) := by
  have hrule := rule_onward hd.onward false
  have hcount := h.of_outside (outside_count (c.suspendCount - 1) c)
  have hpos := (Component.suspended_iff c).mp hs
  simp only [resumeIn] at hm ⊢
  by_cases hone : c.suspendCount = 1
  · rw [if_pos hone] at hm ⊢
    by_cases hc : c.closed = true
    · rw [if_pos hc] at hm ⊢
      exact drained_completeDeferred hd (drained_of_closed hcount hc) hm
    · rw [if_neg hc] at hm ⊢
      have hm₁ := (outside_leave _).unmarked hm
      have hm₂ := (hrule.completeDeferred _).unmarked hm₁
      have hm₃ := (hrule.resumeUpstreamIn deliveries _).unmarked hm₂
      have hprocess := drained_processPendingIn hd (hcount.of_outside (outside_enter _)) hm₃
      have hup := drained_resumeUpstreamIn hd deliveries hprocess hm₂
      exact drained_leave (drained_completeDeferred hd hup hm₁)
  · rw [if_neg hone]
    exact drained_of_suspended hcount ((Component.suspended_iff _).mpr (by simp only; omega))

end Rests

/-! ### The downstream, at every depth -/

/-- The acts of one call, by what each does. -/
theorem takeTurn_relates {R : Stage Z → Stage Z → Prop} (htrans : ∀ {c d e}, R c d → R d e → R c e)
    (houtside : ∀ {c d}, Outside c d → R c d) {again : List Delivery → Stage Z → Stage Z}
    (hagain : ∀ deliveries c, c.suspended = true → R c (again deliveries c)) (c : Stage Z) :
    R c (takeTurn again c) := by
  have hact : ∀ (a : Act) (c : Stage Z), R c (act again a c) := fun a c => by
    cases a with
    | consume n => exact houtside (outside_consume _ c)
    | suspend => exact houtside (outside_suspend c)
    | resume deliveries =>
      rw [act]
      split
      · rename_i hs
        exact hagain deliveries c hs
      · exact houtside (outside_flags rfl rfl id)
    | close => exact houtside (outside_requestClose c)
  have hacts : ∀ (acts : List Act) (c : Stage Z), R c (acts.foldl (fun c a => act again a c) c) := fun acts => by
    induction acts with
    | nil => exact fun c => houtside (outside_flags rfl rfl id)
    | cons a acts ih => exact fun c => htrans (hact a c) (ih _)
  rw [takeTurn]
  refine htrans (houtside ?_) (hacts _ _)
  exact ⟨onward_own rfl rfl rfl rfl, ⟨rfl, rfl, rfl, rfl, rfl⟩⟩

/-- A resting component stays one, unless the mark is left. -/
structure Rests (c d : Stage Z) : Prop extends Onward c d where
  rests : Resting c → ¬Marked d → Resting d

theorem Rests.trans (h : Rests c d) (h' : Rests d e) : Rests c e :=
  ⟨h.toOnward.trans h'.toOnward, fun hc hm => h'.rests (h.rests hc (h'.unmarked hm)) hm⟩

theorem Outside.rests (h : Outside c d) : Rests c d := ⟨h.toOnward, fun hc _ => hc.of_outside h⟩

/-- **At every depth.** -/
theorem sound_downstream (depth : ℕ) : Sound (downstream (Z := Z) depth) := by
  induction depth with
  | zero =>
    have hnone : ∀ c : Stage Z, Outside c c := fun c => outside_flags rfl rfl id
    refine ⟨fun busy c => ?_, fun c => ?_, fun c h hm => ?_⟩
    · exact takeTurn_relates .trans Outside.toOnward (fun _ c _ => (hnone c).toOnward) c
    · exact takeTurn_relates .trans Outside.undisturbed (fun _ c _ => (hnone c).undisturbed) c
    · exact (takeTurn_relates .trans Outside.rests (fun _ c _ => (hnone c).rests) c).rests h hm
  | succ depth ih =>
    refine ⟨fun busy c => ?_, fun c => ?_, fun c h hm => ?_⟩
    · exact takeTurn_relates .trans Outside.toOnward
        (fun deliveries c _ => (rule_onward ih.onward busy).resumeIn deliveries c) c
    · exact takeTurn_relates .trans Outside.undisturbed
        (fun deliveries c _ => (rule_undisturbed ih.onward ih.undisturbed).resumeIn deliveries c) c
    · refine (takeTurn_relates .trans Outside.rests (fun deliveries c hs => ?_) c).rests h hm
      exact ⟨(rule_onward ih.onward false).resumeIn deliveries c,
        fun h hm => (drained_resumeIn ih deliveries h hs hm).toResting⟩

/-! ### Runs -/

theorem onward_step (depth : ℕ) (c : Stage Z) (i : Input) : Onward c (step depth c i) := by
  have hrule := rule_onward (sound_downstream (Z := Z) depth).onward false
  cases i with
  | delivery x => exact hrule.deliverIn x c
  | suspend => exact (outside_suspend c).toOnward
  | resume deliveries =>
    rw [step]
    split
    · exact hrule.resumeIn deliveries c
    · exact .refl c
  | requestClose => exact (outside_requestClose c).toOnward
  | runClose =>
    rw [step]
    split
    · exact onward_own rfl rfl rfl rfl
    · exact .refl c

/-- **One input.** -/
theorem drained_step (depth : ℕ) (i : Input) (h : Drained c) (hm : ¬Marked (step depth c i)) :
    Drained (step depth c i) := by
  have hd := sound_downstream (Z := Z) depth
  cases i with
  | delivery x => exact drained_deliverIn hd x h hm
  | suspend =>
    refine drained_of_suspended (h.toResting.of_outside (outside_suspend c)) ?_
    rw [step, Component.suspended_iff, Component.suspend]
    split <;> exact Nat.succ_pos _
  | resume deliveries =>
    rw [step] at hm ⊢
    split
    · rename_i hs
      rw [if_pos hs] at hm
      exact drained_resumeIn hd deliveries h.toResting hs hm
    · exact h
  | requestClose =>
    exact drained_of_closed (h.toResting.of_outside (outside_requestClose c)) c.requestClose_closed
  | runClose =>
    rw [step]
    split
    · rename_i hs
      have hc := h.tidy (Or.inr hs)
      exact drained_of_closed ⟨h.tidy, h.fed, fun ho => absurd (hc.symm.trans ho) (by simp)⟩ hc
    · exact h

theorem drained_run (depth : ℕ) (inputs : List Input) (h : Drained c)
    (hm : ¬Marked (Runs.run (step depth) c inputs)) : Drained (Runs.run (step depth) c inputs) := by
  have honward : ∀ (inputs : List Input) (c : Stage Z), Onward c (Runs.run (step depth) c inputs) := by
    intro inputs
    induction inputs with
    | nil => exact .refl
    | cons i inputs ih => exact fun c => (onward_step depth c i).trans (ih _)
  induction inputs generalizing c with
  | nil => exact h
  | cons i inputs ih => exact ih (drained_step depth i h ((honward inputs _).unmarked hm)) hm

theorem drained_new (Z : ZstdDecoder) (script : List (List Act)) : Drained (newStage Z script) := by
  have hnil : Chain.bytes (newStage Z script).own.pendingInput = [] := BufferChain.bytes_nil id none
  have htidy : Tidy (newStage Z script) := by simp [Tidy, newStage, newZstdDecompressor]
  refine ⟨⟨htidy, List.prefix_rfl, fun _ => ⟨⟨?_, rfl, ?_, ?_⟩, hnil⟩⟩, fun _ _ => hnil⟩
  · rw [hnil]
    rfl
  · exact Chain.wf_empty none
  · exact Chain.wf_empty none

/-- **Nested calls feed each byte once**, in every run in which no `DecompressChain` is entered inside another one,
whatever the downstream does inside its `OnData` and an upstream that is resumed gives: the bytes received are those
given while the component was open, and the decoder is fed them, in order; of an open component the others are pending,
and none is unless it is suspended. -/
theorem fed_once (Z : ZstdDecoder) (depth : ℕ) (script : List (List Act)) (inputs : List Input)
    (h : (Runs.run (step depth) (newStage Z script) inputs).own.next.reentered = false) :
    let c := Runs.run (step depth) (newStage Z script) inputs
    c.own.received = c.own.next.given ∧
      c.own.fed <+: c.own.received ∧
      (c.closed = false → c.own.fed ++ Chain.bytes c.own.pendingInput = c.own.received) ∧
      (c.closed = false → c.suspended = false → c.own.fed = c.own.received) := by
  intro c
  have hdrained := drained_run depth inputs (drained_new Z script) (by rw [Marked, h]; exact Bool.false_ne_true)
  refine ⟨told_run depth script inputs, hdrained.fed, fun hc => (hdrained.owed hc).1.input, fun hc hs => ?_⟩
  have hinput := (hdrained.owed hc).1.input
  rw [hdrained.drained hc hs, List.append_nil] at hinput
  exact hinput

/-! ### Frames -/

/-- The header of a single-segment frame with one raw block of two bytes. -/
def rawHeader : List Byte := [40, 181, 47, 253, 32, 2, 17, 0, 0]

/-- Such a frame. -/
def rawFrame (a b : Byte) : List Byte := rawHeader ++ [a, b]

/-- The decoder of such frames, one after the other; the state is what it has of the frame. -/
def rawPairs : ZstdDecoder where
  State := List Byte
  start := []
  decompressStream seen input cap :=
    let n := min input.length (11 - seen.length)
    let frame := seen ++ input.take n
    if 0 < n ∧ frame.take 9 = rawHeader.take frame.length then
      .ok
        { state := if frame.length = 11 then [] else frame
          consumed := n
          produced := if frame.length = 11 then (frame.drop 9).take cap else []
          result := 11 - frame.length
          consumed_le := Nat.min_le_left _ _
          produced_le := by
            split
            · exact List.length_take_le _ _
            · exact Nat.zero_le _ }
    else .error "Unknown frame descriptor"
  rounds _ input := input.length
  progress := by
    intro seen input cap t ht hne _
    simp only at ht
    split at ht
    · rename_i hn
      cases ht
      have hpos : 0 < input.length := List.length_pos_iff.mpr hne
      simp only [List.length_drop]
      omega
    · cases ht

/-- Three frames in one segment. -/
def threeFrames : Segment := .ofBytes (rawFrame 1 2 ++ rawFrame 3 4 ++ rawFrame 5 6)

/-- The caller's chain: the downstream suspends and resumes inside its first `OnData`. -/
theorem fed_once_ownChain :
    let c := Runs.run (step 1) (newStage rawPairs [[.consume none, .suspend, .resume []]])
      [.delivery (.data [threeFrames])]
    c.own.fed = c.own.received :=
  (fed_once rawPairs 1 [[.consume none, .suspend, .resume []]] [.delivery (.data [threeFrames])]
    (by decide +kernel)).2.2.2 (by decide +kernel) (by decide +kernel)

/-- **`pending_input_`: one frame is fed twice, and the next is skipped.**  The downstream suspends in its first
`OnData`, and is resumed; inside the `OnData` with the second frame it suspends and resumes, and inside the one that
this brings it suspends. -/
theorem fed_twice :
    let c := Runs.run (step 2)
      (newStage rawPairs [[.suspend], [.consume none], [.consume none, .suspend, .resume []], [.suspend]])
      [.delivery (.data [threeFrames]), .resume []]
    c.closed = false ∧ Chain.bytes c.own.pendingInput = [] ∧
      c.own.received = rawFrame 1 2 ++ rawFrame 3 4 ++ rawFrame 5 6 ∧
      c.own.fed = rawFrame 1 2 ++ rawFrame 3 4 ++ rawFrame 3 4 := by
  decide +kernel

-- the caller's chain is fed again where the upstream hands it over once more before its `Resume` returns
example :
    (Runs.run (step 2) (newStage rawPairs [[.consume none, .suspend, .resume [.data []]], [.suspend]])
      [.delivery (.data [threeFrames])]).own.fed = rawFrame 1 2 ++ rawFrame 1 2 := by
  decide +kernel

end DbnPipe.Zstd.Nested
