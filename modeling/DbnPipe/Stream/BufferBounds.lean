import DbnPipe.Stream.Handlers

/-!
# Chains within a limit

A component asks `n > limit - size` before it appends `n` bytes, on `size_t`.

* `Within limit chain` — **the chain holds at most `limit` bytes**, kept by consuming, and by appending what fits;
* `Exact limit chain` — then the difference does not wrap around, and the question is whether the bytes fit;
* `Declined e` — what reporting an overflow does.
-/

namespace DbnPipe

/-- A chain that holds at most `limit` bytes. -/
structure Within (limit : ℕ) (chain : Chain) : Prop where
  wf : Chain.WF chain
  le : (Chain.bytes chain).length ≤ limit

namespace Within

variable {limit : ℕ} {chain other : Chain}

theorem size_le (h : Within limit chain) : chain.size ≤ limit := by
  rw [Chain.size_eq h.wf]
  exact h.le

/-- **The question that is asked.** -/
theorem sizeSub_lt (h : Within limit chain) (n : ℕ) :
    sizeSub limit chain.size < n ↔ limit < (Chain.bytes chain).length + n := by
  have hle := h.le
  rw [Chain.size_eq h.wf, sizeSub_of_le hle]
  omega

theorem wouldOverflow (h : Within limit chain) (n : ℕ) :
    chain.wouldOverflow n limit = true ↔ limit < (Chain.bytes chain).length + n := by
  rw [BufferChain.wouldOverflow, decide_eq_true_eq]
  exact h.sizeSub_lt n

theorem empty (limit : ℕ) (r : Option ℕ) : Within limit { recycleCallback := r } :=
  ⟨Chain.wf_empty r, by rw [show Chain.bytes { recycleCallback := r } = [] from BufferChain.bytes_nil id r]
                        exact Nat.zero_le _⟩

theorem cleared (limit : ℕ) (chain : Chain) : Within limit chain.clear :=
  ⟨Chain.wf_cleared chain, by rw [Chain.bytes_cleared]; exact Nat.zero_le _⟩

theorem consumed (h : Within limit chain) (n : ℕ) : Within limit (chain.consume id n) := by
  have hle := h.le
  refine ⟨Chain.wf_consumed h.wf n, ?_⟩
  rw [Chain.bytes_consumed h.wf, List.length_drop]
  omega

theorem recycler (h : Within limit chain) (r : Option ℕ) : Within limit { chain with recycleCallback := r } :=
  ⟨Chain.wf_recycler h.wf r, h.le⟩

theorem appended (h : Within limit chain) {s : Segment} (hs : (Chain.bytes chain).length + s.bytes.length ≤ limit) :
    Within limit (BufferChain.append id chain s) := by
  refine ⟨Chain.wf_appended h.wf s, ?_⟩
  rw [Chain.bytes_appended h.wf, List.length_append]
  exact hs

theorem appendedBytes (h : Within limit chain) {bytes : List Byte}
    (hs : (Chain.bytes chain).length + bytes.length ≤ limit) : Within limit (Chain.appendBytes chain bytes) := by
  obtain ⟨hwf, hbytes⟩ := Chain.appendBytes_spec h.wf bytes
  refine ⟨hwf, ?_⟩
  rw [hbytes, List.length_append]
  exact hs

/-- A splice leaves nothing of the other chain. -/
theorem spliced (h : Within limit chain) (hother : Chain.WF other)
    (hs : (Chain.bytes chain).length + (Chain.bytes other).length ≤ limit) :
    Within limit (Chain.compactAndSplice chain other).1 ∧ ∀ n, Within n (Chain.compactAndSplice chain other).2 := by
  obtain ⟨hwf, hbytes, hleft, hnil⟩ := Chain.compactAndSplice_spec h.wf hother
  refine ⟨⟨hwf, ?_⟩, fun n => ⟨hleft, ?_⟩⟩
  · rw [hbytes, List.length_append]
    exact hs
  · rw [hnil]
    exact Nat.zero_le n

end Within

/-- The checks on a chain: the difference is a difference, and an append is let through exactly if it fits. -/
structure Exact (limit : ℕ) (chain : Chain) : Prop where
  held : chain.size = (Chain.bytes chain).length
  le : (Chain.bytes chain).length ≤ limit
  difference : sizeSub limit chain.size + (Chain.bytes chain).length = limit
  check : ∀ n, sizeSub limit chain.size < n ↔ limit < (Chain.bytes chain).length + n

theorem Within.exact {limit : ℕ} {chain : Chain} (h : Within limit chain) : Exact limit chain := by
  have hle := h.le
  refine ⟨Chain.size_eq h.wf, hle, ?_, h.sizeSub_lt⟩
  rw [Chain.size_eq h.wf, sizeSub_of_le hle]
  omega

/-- A component declines: it reports `e`, unless it has given a terminal signal before, and closes. -/
structure Declined {σ : Type} (e : Error) (c c' : Component σ) : Prop where
  own : c'.own = c.own
  closed : c'.closed = true
  signals : c'.signals = if c.finalized then c.signals else c.signals ++ [.error e]

theorem declined {σ : Type} (e : Error) (c : Component σ) : Declined e c (c.emitError e).requestClose :=
  ⟨(c.failed e).own, (c.failed e).closed, c.signals_error e⟩

end DbnPipe
