import DbnPipe.Client.FailFast

/-!
# The journal of the streaming client grows

No event takes anything out of the journal, and only `Stop` and `Close` write that they have returned.

* `Grows` — **a journal goes on**, without the return of a `Stop`;
* `grows_step` — every event but `Stop` and `Close` makes the journal grow so; `grows_finish`, what those do first;
* `extends_run` — the journal of a run begins with that of its start.
-/

namespace DbnPipe.Client.StreamingClient

/-- The journal of one client goes on with that of another, in which no `Stop` returns. -/
def Grows (c c' : StreamingClient) : Prop := ∃ extra, c'.journal = c.journal ++ extra ∧ .stopped ∉ extra

theorem Grows.refl (c : StreamingClient) : Grows c c := ⟨[], (List.append_nil _).symm, List.not_mem_nil⟩

theorem Grows.trans {c c' c'' : StreamingClient} (h : Grows c c') (h' : Grows c' c'') : Grows c c'' := by
  obtain ⟨extra, hextra, hmem⟩ := h
  obtain ⟨extra', hextra', hmem'⟩ := h'
  exact ⟨extra ++ extra', by rw [hextra', hextra, List.append_assoc], fun ha => (List.mem_append.mp ha).elim hmem hmem'⟩

/-- A client with the same journal. -/
theorem grows_of_eq {c c' : StreamingClient} (h : c'.journal = c.journal) : Grows c c' :=
  ⟨[], by rw [h, List.append_nil], List.not_mem_nil⟩

/-- A client with one entry more. -/
theorem grows_of_entry {c c' : StreamingClient} {a : Act} (h : c'.journal = c.journal ++ [a]) (ha : .stopped ≠ a) :
    Grows c c' :=
  ⟨[a], h, fun hmem => ha (List.mem_singleton.mp hmem)⟩

theorem Signalled.grows {c c' : StreamingClient} (h : Signalled c c') : Grows c c' := by
  obtain ⟨_, _, _, _, extra, rfl, -, he⟩ := h
  refine ⟨extra, rfl, fun hmem => ?_⟩
  rcases he _ hmem with h | h | h | h <;> exact Act.noConfusion h

theorem grows_finish (c : StreamingClient) : Grows c (c.finish .stopping []) :=
  (signalled_finish c (Or.inr (Or.inr (Or.inl rfl))) []).grows

theorem grows_pipelineStart (during : List Signal) (c : StreamingClient) : Grows c (c.pipelineStart during) := by
  rw [pipelineStart]
  split
  · exact .refl c
  · exact .refl c
  · have hsent : Grows c ({ c with pipeline := some .started }.record .sendRequest) :=
      grows_of_entry rfl Act.noConfusion
    exact hsent.trans (signalled_onSignals during _).grows
  · exact grows_of_entry rfl Act.noConfusion

theorem grows_send (during : List Signal) (c : StreamingClient) : Grows c (c.send during) := by
  have hset : Grows (c.pipelineStart during) (c.send during) := grows_of_entry rfl Act.noConfusion
  exact (grows_pipelineStart during c).trans hset

theorem grows_connect (during : List Signal) (c : StreamingClient) : Grows c (c.connect during) := by
  rw [StreamingClient.connect]
  split
  · exact .refl c
  · split
    · exact (signalled_handleError c _).grows
    · have hconnecting : Grows c c.connecting := by
        refine ⟨_, rfl, fun hmem => ?_⟩
        split at hmem <;> simp at hmem
      rw [connect_built]
      exact hconnecting.trans (signalled_onSignals during c.connecting).grows

theorem grows_call (c : StreamingClient) {x : Call} (hstop : x ≠ .stop) (hclose : x ≠ .close) :
    Grows c (c.call x) := by
  cases x with
  | setRequest => exact .refl c
  | connectHost addr during =>
      rw [call, StreamingClient.connectHost]
      split
      · exact .refl c
      · split
        · exact (signalled_handleError c _).grows
        · split
          · exact (signalled_handleError c _).grows
          · exact grows_connect during c
  | connect during => exact grows_connect during c
  | start during =>
      rw [call, StreamingClient.start]
      split
      · exact .refl c
      · split
        · exact (signalled_handleError c _).grows
        · simp only
          split
          · exact grows_send during { c with startRequested := true }
          · exact grows_of_eq rfl
  | stop => exact absurd rfl hstop
  | close => exact absurd rfl hclose
  | suspend =>
      rw [call, StreamingClient.suspend]
      simp only [StreamingClient.pipelineSuspend]
      split
      · split
        · exact grows_of_eq rfl
        · exact grows_of_eq rfl
        · exact grows_of_entry rfl Act.noConfusion
      · exact grows_of_eq rfl
  | resume =>
      rw [call, StreamingClient.resume]
      simp only [StreamingClient.pipelineResume]
      split
      · split
        · exact grows_of_eq rfl
        · exact grows_of_eq rfl
        · exact grows_of_entry rfl Act.noConfusion
      · exact grows_of_eq rfl

theorem grows_markReady (c : StreamingClient) : Grows c c.markReady := by
  rw [markReady]
  split
  · exact .refl c
  · exact .refl c
  · exact grows_of_eq rfl
  · exact grows_of_entry rfl Act.noConfusion

theorem grows_onReady (during : List Signal) (c : StreamingClient) : Grows c (c.onReady during) := by
  have hcalled : Grows c ({ c with mayBeReady := false }.record .readyCallback) := grows_of_entry rfl Act.noConfusion
  rw [StreamingClient.onReady]
  split
  · rw [handleReady]
    split
    · exact hcalled
    · have hset : Grows ({ c with mayBeReady := false }.record .readyCallback)
          ({ ({ c with mayBeReady := false }.record .readyCallback) with ready := true }.setState .connected) :=
        grows_of_entry rfl Act.noConfusion
      have hmarked := (hcalled.trans hset).trans (grows_markReady _)
      simp only
      split
      · exact hmarked.trans (grows_send during _)
      · exact hmarked
  · exact .refl c

theorem grows_onBatch (n : ℕ) (c : StreamingClient) : Grows c (c.onBatch n) := by
  rw [StreamingClient.onBatch]
  split
  · rw [handleBatch]
    split
    · exact grows_of_entry rfl Act.noConfusion
    · split
      · exact grows_of_eq rfl
      · exact .refl c
  · exact .refl c

theorem grows_runDeferred (c : StreamingClient) : Grows c c.runDeferred := by
  rw [StreamingClient.runDeferred]
  split
  · exact .refl c
  · simp only
    split
    · exact grows_of_entry rfl Act.noConfusion
    · exact grows_of_eq rfl
  · simp only
    split
    · exact grows_of_entry rfl Act.noConfusion
    · exact grows_of_eq rfl

/-- **Every event but `Stop` and `Close`.** -/
theorem grows_step (c : StreamingClient) {ev : Event} (hstop : ev ≠ .call .stop) (hclose : ev ≠ .call .close) :
    Grows c (c.step ev) := by
  rw [StreamingClient.step.eq_def]
  split
  · exact .refl c
  · cases ev with
    | call x => exact grows_call c (fun h => hstop (by rw [h])) fun h => hclose (by rw [h])
    | nextRecord =>
        simp only [StreamingClient.nextRecord]
        split
        · exact .refl c
        · exact grows_of_entry rfl Act.noConfusion
    | ready during =>
        simp only
        split
        · exact grows_onReady during c
        · exact .refl c
    | batch n =>
        simp only
        split
        · exact grows_onBatch n c
        · exact .refl c
    | signal s =>
        simp only
        split
        · exact (signalled_onSignal c s).grows
        · exact .refl c
    | runDeferred =>
        simp only
        split
        · exact grows_runDeferred c
        · exact .refl c

/-- No event takes anything out of the journal. -/
theorem extends_step (c : StreamingClient) (ev : Event) : c.journal <+: (c.step ev).journal := by
  have hstop : c.journal <+: c.stop.journal := by
    rw [StreamingClient.stop]
    split
    · exact List.prefix_append _ _
    · obtain ⟨extra, hextra, -⟩ := grows_finish c
      rw [StreamingClient.record, hextra, List.append_assoc]
      exact List.prefix_append _ _
  by_cases hcall : ev = .call .stop ∨ ev = .call .close
  · rw [StreamingClient.step.eq_def]
    split
    · exact List.prefix_rfl
    · rcases hcall with rfl | rfl <;> exact hstop
  · rw [not_or] at hcall
    obtain ⟨extra, hextra, -⟩ := grows_step c hcall.1 hcall.2
    rw [hextra]
    exact List.prefix_append _ _

/-- The journal of a run begins with that of its start. -/
theorem extends_run (c : StreamingClient) (evs : List Event) : c.journal <+: (Runs.run step c evs).journal := by
  induction evs generalizing c with
  | nil => exact List.prefix_rfl
  | cons ev evs ih => exact (extends_step c ev).trans (ih (c.step ev))

end DbnPipe.Client.StreamingClient
