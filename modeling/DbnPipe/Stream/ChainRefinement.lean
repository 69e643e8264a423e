import DbnPipe.Stream.StoreOperations

/-!
# A buffer chain refines a byte list

The operations of `StoreOperations` put together over arbitrary runs of the store.

* `Steps` — what one operation does to the byte lists, to the invariant and to what holders see;
* `step_spec` — **every operation is its list operation**, one case for each;
* `run_inv` — the ownership invariant holds of every store a run reaches;
* `ChainFacts` — what a chain promises: representation, size and positional reads;
* `bufferChain_refines` — all of it, for every chain of every reachable store.
-/

namespace DbnPipe.Store

/-! ### Taking and dropping references -/

/-- Dropping references keeps the invariant. -/
theorem inv_dropRefs {w : Store} (h : w.Inv) {writers : List SegId} {held : List RecordRef}
    (hw : writers.Sublist w.writers) (hh : held.Sublist w.held) :
    Inv { w with writers := writers, held := held } := by
  have hex : (w.allocators.flatMap (·.freeList) ++ writers).Sublist w.exclusiveRefs :=
    (List.Sublist.refl _).append hw
  have hsh : (w.chains.flatMap (·.segments) ++
      held.filterMap (·.keepalive.segment?)).Sublist w.sharedRefs :=
    (List.Sublist.refl _).append (hh.filterMap _)
  exact ⟨h.wf, hex.nodup h.nodup, fun s he hs => h.disjoint s (hex.subset he) (hsh.subset hs),
    fun s hs => h.bound s ((hsh.append hex).subset hs), fun r hr => h.inRange r (hh.subset hr)⟩

/-- A writer takes a segment nobody references. -/
theorem inv_addWriter {w : Store} (h : w.Inv) {s : SegId} (hs : w.Unreferenced s) :
    Inv { w with writers := w.writers ++ [s] } := by
  have hassoc : w.allocators.flatMap (·.freeList) ++ (w.writers ++ [s]) = w.exclusiveRefs ++ [s] :=
    (List.append_assoc ..).symm
  refine ⟨h.wf, ?_, ?_, ?_, h.inRange⟩
  · rw [exclusiveRefs, hassoc]
    exact (List.perm_append_singleton s w.exclusiveRefs).nodup_iff.2
      (List.nodup_cons.2 ⟨hs.exclusive, h.nodup⟩)
  · intro t ht
    rw [exclusiveRefs, hassoc] at ht
    rcases List.mem_append.1 ht with ht | ht
    · exact h.disjoint t ht
    · obtain rfl : t = s := by simpa using ht
      exact hs.shared
  · intro t ht
    rw [exclusiveRefs, hassoc, ← List.append_assoc] at ht
    rcases List.mem_append.1 ht with ht | ht
    · exact h.bound t ht
    · obtain rfl : t = s := by simpa using ht
      exact hs.bound

/-- A writer gives its segment away. -/
theorem inv_takeWriter {w : Store} (h : w.Inv) {k : ℕ} {s : SegId} (hk : w.writers[k]? = some s) :
    Inv { w with writers := w.writers.eraseIdx k } ∧
      Unreferenced { w with writers := w.writers.eraseIdx k } s := by
  obtain ⟨hlt, rfl⟩ := List.getElem?_eq_some_iff.1 hk
  have hperm : w.exclusiveRefs.Perm
      (w.writers[k] :: (w.allocators.flatMap (·.freeList) ++ w.writers.eraseIdx k)) :=
    ((List.getElem_cons_eraseIdx_perm hlt).symm.append_left _).trans List.perm_middle
  have hmem : w.writers[k] ∈ w.exclusiveRefs :=
    List.mem_append_right _ (List.getElem_mem hlt)
  exact ⟨inv_dropRefs h (List.eraseIdx_sublist _ _) (List.Sublist.refl _),
    h.disjoint _ hmem, (List.nodup_cons.1 (hperm.nodup_iff.1 h.nodup)).1,
    h.bound _ (List.mem_append_right _ hmem)⟩

/-- A holder takes a reference to a segment some chain uses, or to a scratch buffer. -/
theorem inv_addHeld {w : Store} (h : w.Inv) {r : RecordRef} (hin : r.InRange w)
    (hseg : ∀ s, r.keepalive.segment? = some s → s ∈ w.sharedRefs) :
    Inv { w with held := w.held ++ [r] } := by
  have hsub : ∀ s ∈ sharedRefs { w with held := w.held ++ [r] }, s ∈ w.sharedRefs := by
    intro s hs
    rcases List.mem_append.1 hs with hs | hs
    · exact List.mem_append_left _ hs
    · rw [List.filterMap_append] at hs
      rcases List.mem_append.1 hs with hs | hs
      · exact List.mem_append_right _ hs
      · obtain ⟨r', hr', hs'⟩ := List.mem_filterMap.1 hs
        obtain rfl : r' = r := by simpa using hr'
        exact hseg s hs'
  refine ⟨h.wf, h.nodup, fun s he hs => h.disjoint s he (hsub s hs), ?_, ?_⟩
  · intro s hs
    rcases List.mem_append.1 hs with hs | hs
    · exact h.bound s (List.mem_append_left _ (hsub s hs))
    · exact h.bound s (List.mem_append_right _ hs)
  · intro r' hr'
    rcases List.mem_append.1 hr' with hr' | hr'
    · exact h.inRange r' hr'
    · obtain rfl : r' = r := by simpa using hr'
      exact hin

/-- A scratch buffer is filled once and never again. -/
theorem inv_addScratch {w : Store} (h : w.Inv) (l : List Byte) :
    Inv { w with scratch := w.scratch ++ [l] } := by
  refine ⟨h.wf, h.nodup, h.disjoint, h.bound, fun r hr => ?_⟩
  have hin := h.inRange r hr
  cases hk : r.keepalive with
  | segment s =>
    simp only [RecordRef.InRange, hk] at hin ⊢
    exact hin
  | scratch k =>
    simp only [RecordRef.InRange, hk] at hin ⊢
    obtain ⟨l', hl', hle⟩ := hin
    exact ⟨l', by rw [List.getElem?_append_left (List.getElem?_eq_some_iff.1 hl').1, hl'], hle⟩

/-! ### One operation -/

/-- What an operation does: `Inv` is kept, the byte lists change as `o` says, and neither the segments
nor the scratch buffers that record references hold change. -/
structure Steps (w w' : Store) (o : ListOp) : Prop where
  inv : w'.Inv
  contents : w'.contents = o.apply w.contents
  frame : ∀ r ∈ w.held, ∀ s, r.keepalive = .segment s → w'.heap s = w.heap s
  scratch : w.scratch <+: w'.scratch

theorem Evolves.steps {w w' : Store} {o : ListOp} (h : Evolves w w')
    (hc : w'.contents = o.apply w.contents) : Steps w w' o :=
  ⟨h.inv, hc, h.frame, by rewrite [h.scratch]; exact List.prefix_rfl⟩

/-- Every reference held before an operation sees the same bytes after it. -/
theorem Steps.view {w w' : Store} {o : ListOp} (hw : w.Inv) (h : Steps w w' o) {r : RecordRef}
    (hr : r ∈ w.held) : w'.view r = w.view r := by
  have hin := hw.inRange r hr
  cases hk : r.keepalive with
  | segment s =>
    simp only [Store.view, hk, h.frame r hr s hk]
  | scratch k =>
    simp only [RecordRef.InRange, hk] at hin
    obtain ⟨l, hl, -⟩ := hin
    obtain ⟨tail, htail⟩ := h.scratch
    have hl' : w'.scratch[k]? = some l := by
      rw [← htail, List.getElem?_append_left (List.getElem?_eq_some_iff.1 hl).1, hl]
    simp only [Store.view, hk, List.getD_eq_getElem?_getD, hl, hl']

/-- An operation that finds nothing to work on. -/
theorem steps_skip {w : Store} (h : w.Inv) : Steps w w .skip :=
  (Evolves.refl h).steps rfl

theorem steps_fill {w : Store} (h : w.Inv) (k : ℕ) (l : List Byte) :
    Steps w (step w (.fill k l)) .skip := by
  simp only [step]
  split
  · exact steps_skip h
  · rename_i s hk
    split
    · obtain ⟨e, hc⟩ := evolves_setSegment h
        (h.disjoint s (List.mem_append_right _ (List.mem_of_getElem? hk))) _
      exact e.steps hc
    · exact steps_skip h

theorem allocate_writers (w : Store) (a : ℕ) : (w.allocate a).1.writers = w.writers := by
  rw [allocate]
  split
  · rfl
  · split <;> rfl

theorem steps_allocate {w : Store} (h : w.Inv) (a : ℕ) : Steps w (step w (.allocate a)) .skip := by
  obtain ⟨e, hc, hun, -⟩ := evolves_allocate h a
  simp only [step, ← allocate_writers w a]
  exact ⟨inv_addWriter e.inv hun, hc, e.frame, by rewrite [e.scratch]; exact List.prefix_rfl⟩

theorem steps_append {w : Store} (h : w.Inv) (i k : ℕ) :
    Steps w (step w (.append i k)) ((Op.append i k).onLists w) := by
  simp only [step, Op.onLists]
  cases hk : w.writers[k]? with
  | none => exact steps_skip h
  | some s =>
    obtain ⟨hinv, hun⟩ := inv_takeWriter h hk
    obtain ⟨e, hc⟩ := evolves_appendTo hinv i hun.exclusive hun.bound
    exact ⟨e.inv, hc, e.frame, by rewrite [e.scratch]; exact List.prefix_rfl⟩

theorem steps_appendHeld {w : Store} (h : w.Inv) (i k : ℕ) :
    Steps w (step w (.appendHeld i k)) ((Op.appendHeld i k).onLists w) := by
  simp only [step, Op.onLists]
  cases hk : (w.held[k]?).bind (·.keepalive.segment?) with
  | none => exact steps_skip h
  | some s =>
    obtain ⟨r, hr, hs⟩ := Option.bind_eq_some_iff.1 hk
    have hsh : s ∈ w.sharedRefs :=
      List.mem_append_right _ (List.mem_filterMap.2 ⟨r, List.mem_of_getElem? hr, hs⟩)
    obtain ⟨e, hc⟩ := evolves_appendTo h i (fun he => h.disjoint s he hsh)
      (h.bound s (List.mem_append_left _ hsh))
    exact e.steps hc

theorem steps_hold {w : Store} (h : w.Inv) (i offset len : ℕ) :
    Steps w (step w (.hold i offset len)) .skip := by
  simp only [step]
  cases hi : w.chains[i]? with
  | none => exact steps_skip h
  | some c =>
    by_cases hcond : 0 < len ∧ c.isContiguous w.heap offset len = true
    · obtain ⟨s, pos, hd, hle, -⟩ := BufferChain.contiguous_slice w.heap hcond.2 hcond.1
      have hmem : s ∈ c.segments := by
        have hseek := hd
        rw [BufferChain.dataAt] at hseek
        obtain ⟨pre, hpre, -⟩ := Chunks.locate_split (fun s => (w.heap s).bytes) c.segments
          (c.consumedOffset + offset)
        split at hseek
        · exact absurd hseek (by simp)
        · rename_i t rest p hl
          obtain ⟨rfl, rfl⟩ : t = s ∧ p = pos := by simpa using hseek
          rw [BufferChain.seek] at hl
          rw [hpre, hl]
          simp
      simp only [if_pos hcond, hd]
      exact ⟨inv_addHeld h hle fun t ht => by
        obtain rfl : s = t := by simpa [Keepalive.segment?] using ht
        exact mem_shared_of_chain hi hmem, rfl, fun _ _ _ _ => rfl, List.prefix_rfl⟩
    · simp only [if_neg hcond]
      exact steps_skip h

theorem steps_holdScratch {w : Store} (h : w.Inv) (l : List Byte) :
    Steps w (step w (.holdScratch l)) .skip :=
  ⟨inv_addHeld (inv_addScratch h l) ⟨l, List.getElem?_concat_length, by simp⟩
    (by simp [Keepalive.segment?]), rfl, fun _ _ _ _ => rfl, List.prefix_append ..⟩

theorem steps_release {w : Store} (h : w.Inv) (a k : ℕ) :
    Steps w (step w (.release a k)) .skip := by
  simp only [step]
  cases hk : w.writers[k]? with
  | none => exact steps_skip h
  | some s =>
    obtain ⟨hinv, hun⟩ := inv_takeWriter h hk
    obtain ⟨e, hc⟩ := evolves_release hinv a hun.bound []
    exact ⟨e.inv, hc, e.frame, by rewrite [e.scratch]; exact List.prefix_rfl⟩

theorem release_heap (w : Store) (a : ℕ) (s : SegId) (others : List SegId) :
    (w.release a s others).heap = w.heap := by
  rw [release]
  split
  · rfl
  · split <;> rfl

theorem steps_releaseHeld {w : Store} (h : w.Inv) (a k : ℕ) :
    Steps w (step w (.releaseHeld a k)) .skip := by
  simp only [step]
  cases hk : (w.held[k]?).bind (·.keepalive.segment?) with
  | none => exact steps_skip h
  | some s =>
    obtain ⟨r, hr, hs⟩ := Option.bind_eq_some_iff.1 hk
    have hsh : s ∈ w.sharedRefs :=
      List.mem_append_right _ (List.mem_filterMap.2 ⟨r, List.mem_of_getElem? hr, hs⟩)
    have hinv := inv_dropRefs h (List.Sublist.refl _) (List.eraseIdx_sublist w.held k)
    obtain ⟨e, hc⟩ := evolves_release hinv a (h.bound s (List.mem_append_left _ hsh)) []
    exact ⟨e.inv, hc, fun _ _ t _ => by rw [release_heap], by rewrite [e.scratch]; exact List.prefix_rfl⟩

/-- **Every operation is its list operation**, keeps the ownership invariant and changes nothing a record
reference holds. -/
theorem step_spec {w : Store} (h : w.Inv) (op : Op) : Steps w (step w op) (op.onLists w) := by
  cases op with
  | newChain r =>
    refine ⟨⟨?_, h.nodup, ?_, ?_, h.inRange⟩, ?_, fun _ _ _ _ => rfl, List.prefix_rfl⟩
    · intro c hc
      rcases List.mem_append.1 hc with hc | hc
      · exact h.wf c hc
      · obtain rfl := List.mem_singleton.1 hc
        exact BufferChain.wf_nil w.heap r
    · intro s he hs
      exact h.disjoint s he (by simpa [step, sharedRefs] using hs)
    · intro s hs
      exact h.bound s (by simpa [step, sharedRefs, exclusiveRefs] using hs)
    · simp [step, contents, Op.onLists, ListOp.apply]
  | allocate a => exact steps_allocate h a
  | fill k l => exact steps_fill h k l
  | append i k => exact steps_append h i k
  | appendHeld i k => exact steps_appendHeld h i k
  | hold i offset len => exact steps_hold h i offset len
  | holdScratch l => exact steps_holdScratch h l
  | drop k =>
    exact ⟨inv_dropRefs h (List.Sublist.refl _) (List.eraseIdx_sublist w.held k), rfl,
      fun _ _ _ _ => rfl, List.prefix_rfl⟩
  | discard k =>
    exact ⟨inv_dropRefs h (List.eraseIdx_sublist w.writers k) (List.Sublist.refl _), rfl,
      fun _ _ _ _ => rfl, List.prefix_rfl⟩
  | release a k => exact steps_release h a k
  | releaseHeld a k => exact steps_releaseHeld h a k
  | consume i n => exact (evolves_consume h i n).1.steps (evolves_consume h i n).2
  | compact i => exact (evolves_compact h i).1.steps (evolves_compact h i).2.1
  | splice i j => exact (evolves_splice h i j).1.steps (evolves_splice h i j).2
  | compactAndSplice i j =>
    exact (evolves_compactAndSplice h i j).1.steps (evolves_compactAndSplice h i j).2
  | clear i => exact (evolves_clear h i).1.steps (evolves_clear h i).2
  | appendBytes i a l =>
    obtain ⟨e, hc⟩ := evolves_appendBytesLoop h i a l (Nat.le_refl l.length)
    exact e.steps hc

/-! ### Runs -/

theorem inv_initial (maxPools : List ℕ) : (initial maxPools).Inv where
  wf := by simp [initial]
  nodup := by
    have hnil : maxPools.flatMap (fun _ => ([] : List SegId)) = [] := by simp
    simp [initial, exclusiveRefs, List.flatMap_map, hnil]
  disjoint := by simp [initial, sharedRefs]
  bound := by simp [initial, sharedRefs, exclusiveRefs, List.flatMap_map]
  inRange := by simp [initial]

/-- The ownership invariant holds of every store a run reaches. -/
theorem run_inv (maxPools : List ℕ) (ops : List Op) :
    (Runs.run step (initial maxPools) ops).Inv := by
  have hstep : ∀ (w : Store) (op : Op), w.Inv → (step w op).Inv := fun _ op h => (step_spec h op).inv
  exact Runs.run_invariant hstep (inv_initial maxPools) ops

/-- Compacting writes to a fresh segment, or to one whose only reference is the chain's front slot. -/
theorem compact_heap {w : Store} (h : w.Inv) {i : ℕ} {s : SegId} (hs : 0 < w.useCount s)
    (hne : (w.compact i).heap s ≠ w.heap s) :
    w.useCount s = 1 ∧ ∃ c, w.chains[i]? = some c ∧ c.segments.head? = some s := by
  have hbound : s < w.nextSeg := h.bound s (List.count_pos_iff.1 hs)
  cases hc : w.chains[i]? with
  | none => exact absurd (by rw [compact_of_none hc]) hne
  | some c =>
    by_cases h0 : c.consumedOffset = 0
    · exact absurd (by rw [compact_of_zero hc h0]) hne
    cases hseg : c.segments with
    | nil => exact absurd ((h.wf c (List.mem_of_getElem? hc)).offset_nil hseg) h0
    | cons first rest =>
      by_cases huse : 1 < w.useCount first
      · refine absurd ?_ hne
        rw [compact_of_shared hc h0 hseg huse]
        have hfresh : s ≠ w.nextSeg := Nat.ne_of_lt hbound
        simp [setChain, setSegment, allocateFresh, hfresh]
      · rw [compact_of_sole hc h0 hseg huse] at hne
        have hfirst : s = first := by
          by_contra hdiff
          exact hne (Function.update_of_ne hdiff _ _)
        subst hfirst
        exact ⟨by omega, c, rfl, by rw [hseg]; rfl⟩

/-! ### What a chain promises -/

/-- The representation, the size and the positional reads of a chain over its byte list. -/
structure ChainFacts (heap : SegId → Segment) (c : BufferChain SegId) : Prop where
  nonempty : ∀ s ∈ c.segments, 0 < (heap s).size
  offset_lt : ∀ s ∈ c.segments.head?, c.consumedOffset < (heap s).size
  offset_nil : c.segments = [] → c.consumedOffset = 0
  size : c.size = (c.bytes heap).length
  copyTo : ∀ offset len, offset + len ≤ c.size →
    c.copyTo heap offset len = ((c.bytes heap).drop offset).take len
  isContiguous : ∀ offset len, 0 < len → offset + len ≤ c.size →
    (c.isContiguous heap offset len = true ↔ c.InOneSegment heap offset len)
  dataAt : ∀ offset len, 0 < len → offset + len ≤ c.size →
    ∃ s pos, c.dataAt heap offset = some (s, pos) ∧ c.getSegmentAt heap offset = some s ∧
      s ∈ c.segments ∧ (heap s).bytes[pos]? = (c.bytes heap)[offset]? ∧
      pos < (heap s).size ∧
      (c.isContiguous heap offset len = true →
        ((c.bytes heap).drop offset).take len = ((heap s).bytes.drop pos).take len)

theorem chainFacts_of_wf {heap : SegId → Segment} {c : BufferChain SegId} (h : c.WF heap) :
    ChainFacts heap c where
  nonempty := fun s hs => List.length_pos_iff.2 (h.nonempty s hs)
  offset_lt := h.offset_lt
  offset_nil := h.offset_nil
  size := h.size_eq
  copyTo := fun offset len _ => BufferChain.copyTo_eq heap c offset len
  isContiguous := fun offset _ hlen _ => BufferChain.isContiguous_iff heap c offset hlen
  dataAt := by
    intro offset len hlen hle
    have hlt : offset < (c.bytes heap).length := by
      have hsize : c.size = (c.bytes heap).length := h.size_eq
      omega
    obtain ⟨s, pos, hd, hmem, hpos, hbyte, -⟩ := BufferChain.dataAt_spec heap c hlt
    refine ⟨s, pos, hd, by rw [BufferChain.getSegmentAt_eq, hd]; rfl, hmem, hbyte, hpos, ?_⟩
    intro hcontig
    obtain ⟨s', pos', hd', -, hslice⟩ := BufferChain.contiguous_slice heap hcontig hlen
    obtain ⟨rfl, rfl⟩ : s = s' ∧ pos = pos' := by simpa [hd] using hd'
    exact hslice

/-- **A buffer chain refines a byte list.**  In every store that a run of operations reaches: each chain
keeps its promises, each further operation acts on the byte lists of all chains as its list operation
does, and `Compact` leaves the front offset at zero and changes no segment that anybody but its own front
slot references. -/
theorem bufferChain_refines (maxPools : List ℕ) (ops : List Op) :
    (∀ c ∈ (Runs.run step (initial maxPools) ops).chains,
      ChainFacts (Runs.run step (initial maxPools) ops).heap c) ∧
    (∀ op, (step (Runs.run step (initial maxPools) ops) op).contents =
      (op.onLists (Runs.run step (initial maxPools) ops)).apply
        (Runs.run step (initial maxPools) ops).contents) ∧
    (∀ i c, ((Runs.run step (initial maxPools) ops).compact i).chains[i]? = some c →
      c.consumedOffset = 0) ∧
    (∀ i s, 0 < (Runs.run step (initial maxPools) ops).useCount s →
      ((Runs.run step (initial maxPools) ops).compact i).heap s ≠
        (Runs.run step (initial maxPools) ops).heap s →
      (Runs.run step (initial maxPools) ops).useCount s = 1 ∧
        ∃ c, (Runs.run step (initial maxPools) ops).chains[i]? = some c ∧
          c.segments.head? = some s) := by
  have hinv := run_inv maxPools ops
  exact ⟨fun c hc => chainFacts_of_wf (hinv.wf c hc), fun op => (step_spec hinv op).contents,
    fun i => (evolves_compact hinv i).2.2, fun i s => compact_heap hinv⟩

end DbnPipe.Store
