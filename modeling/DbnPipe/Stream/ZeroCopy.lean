import DbnPipe.Stream.ChainRefinement

/-!
# Zero-copy delivery is safe

Which operations write to which segments, and what follows for the records that point into them.

* `Op.compacts` — the chains an operation moves the front bytes of;
* `step_heap` — **frame**: the segments of every other chain keep their whole array, valid data and rest;
* `run_view` — the bytes behind a record reference are the same after any run during which it stays held;
* `zeroCopy_safe` — both, with the disjointness of the free lists and of what `Allocate` hands out.
-/

namespace DbnPipe.Store

/-- The chains whose front an operation compacts. -/
def Op.compacts : Op → List ℕ
  | .compact i => [i]
  | .splice _ j => [j]
  | .compactAndSplice i j => [i, j]
  | _ => []

/-! ### What each operation writes to -/

theorem recycleAll_heap (a : ℕ) (w : Store) (l : List SegId) : (recycleAll a w l).heap = w.heap := by
  induction l generalizing w with
  | nil => rfl
  | cons s rest ih => exact (ih _).trans (release_heap w a s rest)

theorem recycle_heap (w : Store) (c : BufferChain SegId) (l : List SegId) :
    (w.recycle c l).heap = w.heap := by
  rw [recycle]
  split
  · rfl
  · exact recycleAll_heap ..

theorem appendTo_heap (w : Store) (i : ℕ) (s : SegId) : (w.appendTo i s).heap = w.heap := by
  rw [appendTo]
  split <;> rfl

theorem spliceCompacted_heap (w : Store) (i j : ℕ) : (w.spliceCompacted i j).heap = w.heap := by
  rw [spliceCompacted]
  split <;> rfl

/-- `Allocate` writes to the segment it hands out and to no other. -/
theorem allocate_heap (w : Store) (a : ℕ) {s : SegId} (hne : s ≠ (w.allocate a).2) :
    (w.allocate a).1.heap s = w.heap s := by
  rw [allocate] at hne ⊢
  cases ha : w.allocators[a]? with
  | none =>
    simp only [ha] at hne
    exact Function.update_of_ne hne _ _
  | some al =>
    simp only [ha] at hne
    cases hl : al.freeList.getLast? with
    | none =>
      simp only [hl] at hne ⊢
      exact Function.update_of_ne hne _ _
    | some t =>
      simp only [hl] at hne ⊢
      exact Function.update_of_ne hne _ _

theorem allocate_sharedRefs (w : Store) (a : ℕ) : (w.allocate a).1.sharedRefs = w.sharedRefs := by
  rw [allocate]
  split
  · rfl
  · split <;> rfl

/-- Compacting chain `i` writes to no segment of another chain. -/
theorem compact_frame {w : Store} (h : w.Inv) {i k : ℕ} (hik : k ≠ i) {c : BufferChain SegId}
    (hk : w.chains[k]? = some c) {s : SegId} (hs : s ∈ c.segments) :
    (w.compact i).heap s = w.heap s := by
  by_contra hne
  have hmem : s ∈ w.sharedRefs ++ w.exclusiveRefs :=
    List.mem_append_left _ (mem_shared_of_chain hk hs)
  obtain ⟨hone, d, hd, hhead⟩ := compact_heap h (List.count_pos_iff.2 hmem) hne
  obtain ⟨rest, hseg⟩ := List.head?_eq_some_iff.1 hhead
  -- chain `i` gives its reference up, chain `k` still has one
  obtain ⟨-, hnot⟩ := sole_reference hd hseg (by omega) { recycleCallback := none } rfl
  refine hnot (mem_shared_of_chain (i := k) ?_ hs)
  simp only [setChain]
  rw [List.getElem?_set_ne (Ne.symm hik), hk]

theorem compact_chain {w : Store} {i k : ℕ} (hik : k ≠ i) :
    (w.compact i).chains[k]? = w.chains[k]? := by
  have hset : ∀ c : BufferChain SegId, (w.chains.set i c)[k]? = w.chains[k]? := fun c =>
    List.getElem?_set_ne (Ne.symm hik)
  cases hc : w.chains[i]? with
  | none => rw [compact_of_none hc]
  | some c =>
    by_cases h0 : c.consumedOffset = 0
    · rw [compact_of_zero hc h0]
    cases hs : c.segments with
    | nil => simp only [compact, hc, if_neg h0, hs]
    | cons first rest =>
      by_cases huse : 1 < w.useCount first
      · rw [compact_of_shared hc h0 hs huse]
        exact hset _
      · rw [compact_of_sole hc h0 hs huse]
        exact hset _

theorem splice_frame {w : Store} (h : w.Inv) (i : ℕ) {j k : ℕ} (hjk : k ≠ j) {c : BufferChain SegId}
    (hk : w.chains[k]? = some c) {s : SegId} (hs : s ∈ c.segments) :
    (w.splice i j).heap s = w.heap s := by
  cases hj : w.chains[j]? with
  | none => simp only [splice, hj]
  | some other =>
    by_cases hskip : i = j ∨ other.empty = true
    · simp only [splice, hj, if_pos hskip]
    · rw [not_or, Bool.not_eq_true] at hskip
      rw [splice_eq hj hskip.1 hskip.2, spliceCompacted_heap]
      exact compact_frame h hjk hk hs

theorem mem_appendTo {w : Store} (i : ℕ) (t : SegId) {s : SegId}
    (hs : s ∈ w.chains.flatMap (·.segments)) : s ∈ (w.appendTo i t).chains.flatMap (·.segments) := by
  rw [appendTo]
  cases hi : w.chains[i]? with
  | none => exact hs
  | some c =>
    obtain ⟨d, hd, hsd⟩ := List.mem_flatMap.1 hs
    obtain ⟨k, hk⟩ := List.mem_iff_getElem?.1 hd
    by_cases hik : i = k
    · subst hik
      obtain rfl : d = c := by simpa [hk] using hi
      refine List.mem_flatMap.2 ⟨d.append w.heap t, ?_, ?_⟩
      · exact List.mem_of_getElem? (List.getElem?_set_self (List.getElem?_eq_some_iff.1 hk).1)
      · rw [BufferChain.append]
        split
        · exact List.mem_append_left _ hsd
        · exact hsd
    · exact List.mem_flatMap.2 ⟨d, List.mem_of_getElem? ((List.getElem?_set_ne hik).trans hk), hsd⟩

/-- `AppendBytes` writes to segments it has just obtained only. -/
theorem appendBytesLoop_heap {w : Store} (h : w.Inv) (i a : ℕ) (fuel : ℕ) (data : List Byte)
    {s : SegId} (hs : s ∈ w.chains.flatMap (·.segments)) :
    (appendBytesLoop fuel w i a data).heap s = w.heap s := by
  induction fuel generalizing w data with
  | zero => rfl
  | succ fuel ih =>
    by_cases h0 : data.length = 0
    · simp only [appendBytesLoop, if_pos h0]
    simp only [appendBytesLoop, if_neg h0]
    obtain ⟨e1, -, hun, -⟩ := evolves_allocate h a
    have hsh : s ∈ (w.allocate a).1.sharedRefs := by
      rw [allocate_sharedRefs]
      exact List.mem_append_left _ hs
    have hne : s ≠ (w.allocate a).2 := fun heq => hun.shared (heq ▸ hsh)
    have hchains : (w.allocate a).1.chains = w.chains := by
      rw [allocate]
      split
      · rfl
      · split <;> rfl
    obtain ⟨e2, -⟩ := evolves_setSegment e1.inv hun.shared
      (((w.allocate a).1.heap (w.allocate a).2).append data)
    obtain ⟨e3, -⟩ := evolves_appendTo e2.inv i hun.exclusive hun.bound
    rw [ih e3.inv _ (mem_appendTo i _ (by rw [← hchains] at hs; exact hs)), appendTo_heap]
    exact (Function.update_of_ne hne _ _).trans (allocate_heap w a hne)

/-- **Frame.**  An operation writes to no segment of a chain it does not compact. -/
theorem step_heap {w : Store} (h : w.Inv) {op : Op} {k : ℕ} (hop : k ∉ op.compacts)
    {c : BufferChain SegId} (hk : w.chains[k]? = some c) {s : SegId} (hs : s ∈ c.segments) :
    (step w op).heap s = w.heap s := by
  have hsh : s ∈ w.sharedRefs := mem_shared_of_chain hk hs
  cases op with
  | newChain r => rfl
  | allocate a =>
    obtain ⟨-, -, hun, -⟩ := evolves_allocate h a
    refine allocate_heap w a fun heq => hun.shared ?_
    rw [allocate_sharedRefs, ← heq]
    exact hsh
  | fill k l =>
    simp only [step]
    split
    · rfl
    · rename_i t ht
      split
      · have hne : s ≠ t := by
          rintro rfl
          exact h.disjoint s (List.mem_append_right _ (List.mem_of_getElem? ht)) hsh
        exact Function.update_of_ne hne _ _
      · rfl
  | append i k =>
    simp only [step]
    split
    · rfl
    · rw [appendTo_heap]
  | appendHeld i k =>
    simp only [step]
    split
    · rfl
    · rw [appendTo_heap]
  | hold i offset len =>
    simp only [step]
    split
    · rfl
    · split
      · split <;> rfl
      · rfl
  | holdScratch l => rfl
  | drop k => rfl
  | discard k => rfl
  | release a k =>
    simp only [step]
    split
    · rfl
    · rw [release_heap]
  | releaseHeld a k =>
    simp only [step]
    split
    · rfl
    · rw [release_heap]
  | consume i n =>
    simp only [step, consume]
    split
    · rfl
    · rw [recycle_heap]
      rfl
  | compact i => exact compact_frame h (by simpa [Op.compacts] using hop) hk hs
  | splice i j => exact splice_frame h i (by simpa [Op.compacts] using hop) hk hs
  | compactAndSplice i j =>
    simp only [Op.compacts, List.mem_cons, List.not_mem_nil, or_false, not_or] at hop
    cases hi : w.chains[i]? with
    | none => simp only [step, compactAndSplice, hi]
    | some d =>
      simp only [step, compactAndSplice_eq hi]
      rw [splice_frame (evolves_compact h i).1.inv i hop.2 ((compact_chain hop.1).trans hk) hs]
      exact compact_frame h hop.1 hk hs
  | clear i =>
    simp only [step, clear]
    split
    · rfl
    · rw [recycle_heap]
      rfl
  | appendBytes i a l =>
    exact appendBytesLoop_heap h i a l.length l (List.mem_flatMap.2 ⟨c, List.mem_of_getElem? hk, hs⟩)

/-! ### Record references -/

/-- **A record reference sees the same bytes as long as it is held**, whatever else happens. -/
theorem run_view {w : Store} (h : w.Inv) {r : RecordRef} (ops : List Op)
    (hheld : ∀ p, p <+: ops → r ∈ (Runs.run step w p).held) :
    (Runs.run step w ops).view r = w.view r := by
  induction ops generalizing w with
  | nil => rfl
  | cons op ops ih =>
    have hstep := step_spec h op
    have hrest := ih hstep.inv fun p hp => hheld (op :: p) (by simpa using hp)
    rw [Runs.run_cons, hrest]
    exact hstep.view h (hheld [] (by simp))

/-- **Zero-copy safety.**  After any run with one allocator:

* what a record reference sees does not change during any further run that keeps it held;
* the segments of the free list, those writers fill, and the one `Allocate` would hand out next are
  referenced by no chain and by no record;
* an operation that writes to a segment's array finds no record reference to it, and no chain that uses it
  other than one whose own front it compacts;
* and that compaction is in place only where the chain's front slot is the only reference. -/
theorem zeroCopy_safe (maxPoolSize : ℕ) (ops : List Op) :
    (∀ r ops', (∀ p, p <+: ops' → r ∈ (Runs.run step (initial [maxPoolSize]) (ops ++ p)).held) →
      (Runs.run step (initial [maxPoolSize]) (ops ++ ops')).view r =
        (Runs.run step (initial [maxPoolSize]) ops).view r) ∧
    (∀ s ∈ (Runs.run step (initial [maxPoolSize]) ops).exclusiveRefs,
      s ∉ (Runs.run step (initial [maxPoolSize]) ops).sharedRefs) ∧
    (∀ a, ((Runs.run step (initial [maxPoolSize]) ops).allocate a).2 ∉
      (Runs.run step (initial [maxPoolSize]) ops).sharedRefs) ∧
    (∀ op s, (Runs.run step (initial [maxPoolSize]) (ops ++ [op])).heap s ≠
        (Runs.run step (initial [maxPoolSize]) ops).heap s →
      (∀ r ∈ (Runs.run step (initial [maxPoolSize]) ops).held, r.keepalive ≠ .segment s) ∧
      ∀ k c, (Runs.run step (initial [maxPoolSize]) ops).chains[k]? = some c → s ∈ c.segments →
        k ∈ op.compacts) ∧
    (∀ i s, 0 < (Runs.run step (initial [maxPoolSize]) ops).useCount s →
      ((Runs.run step (initial [maxPoolSize]) ops).compact i).heap s ≠
        (Runs.run step (initial [maxPoolSize]) ops).heap s →
      (Runs.run step (initial [maxPoolSize]) ops).useCount s = 1) := by
  have hinv := run_inv [maxPoolSize] ops
  refine ⟨fun r ops' hheld => ?_, hinv.disjoint, fun a hs => ?_, fun op s hne => ⟨?_, ?_⟩,
    fun i s hs hne => (compact_heap hinv hs hne).1⟩
  · rw [Runs.run_append]
    refine run_view hinv ops' fun p hp => ?_
    rw [← Runs.run_append]
    exact hheld p hp
  · obtain ⟨-, -, hun, -⟩ := evolves_allocate hinv a
    rw [← allocate_sharedRefs _ a] at hs
    exact hun.shared hs
  · intro r hr hk
    rw [Runs.run_concat] at hne
    exact hne ((step_spec hinv op).frame r hr s hk)
  · intro k c hk hs
    by_contra hop
    rw [Runs.run_concat] at hne
    exact hne (step_heap hinv hop hk hs)

/-- A record inside the segment of a chain, consumed, the chain compacted and cleared through its recycler
while the record is held. -/
theorem zeroCopy_safe_held :
    (Runs.run step (initial [32]) ([.newChain (some 0), .allocate 0, .fill 0 [1, 2, 3, 4], .append 0 0,
        .hold 0 0 2] ++ [.consume 0 2, .compact 0, .clear 0])).view ⟨.segment 0, 0, 2⟩ =
      (Runs.run step (initial [32]) [.newChain (some 0), .allocate 0, .fill 0 [1, 2, 3, 4], .append 0 0,
        .hold 0 0 2]).view ⟨.segment 0, 0, 2⟩ := by
  refine (zeroCopy_safe 32 _).1 _ _ fun p hp => ?_
  have hlen : p.length ≤ 3 := hp.length_le
  rw [List.prefix_iff_eq_take.1 hp]
  generalize p.length = n at hlen
  obtain rfl | rfl | rfl | rfl : n = 0 ∨ n = 1 ∨ n = 2 ∨ n = 3 := by omega
  all_goals decide +kernel

end DbnPipe.Store
