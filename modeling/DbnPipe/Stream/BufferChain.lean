import DbnPipe.Library.Chunks
import Mathlib.Algebra.Group.Int.Defs
import Mathlib.Algebra.Group.Nat.Defs

/-!
# Segments and buffer chains

`Segment` and `BufferChain` of `lib/stream/buffer_chain.hpp`.  A chain holds references to segments of
some type `σ`; what a reference points at is given by `deref : σ → Segment`, so the same operations serve
both the components (`σ = Segment`, chains by value) and the reference-counted heap of `SegmentStore`
(`σ` = heap addresses).

* `BufferChain.WF` — the representation invariant: no empty segment, the front offset inside the front
  segment, the cached size exact;
* `BufferChain.bytes` — the byte list a chain stands for;
* one spec lemma for each operation: what it does to `bytes`, and that it keeps `WF`.

Sizes are natural numbers; `sizeSub` is `size_t` subtraction, with its wrap-around, for the places where
the code subtracts without a check.
-/

namespace DbnPipe

/-- `std::byte`. -/
abbrev Byte := UInt8

/-- `a - b` on `size_t`: wraps around below zero. -/
def sizeSub (a b : ℕ) : ℕ := if b ≤ a then a - b else a + 2 ^ 64 - b

theorem sizeSub_of_le {a b : ℕ} (h : b ≤ a) : sizeSub a b = a - b := by
  rw [sizeSub, if_pos h]

/-! ### Segments -/

/-- `Segment::kSize`: 64KB. -/
def Segment.kSize : ℕ := 64 * 1024

/-- A fixed-size buffer with the number of bytes written to it.  `bytes` is `data[0, size)`; `rest i` is
`data[i]` for `i ≥ size`, what an over-read of the array would see; `addr` is the address of `data[0]`. -/
structure Segment where
  bytes : List Byte
  rest : ℕ → Byte
  addr : ℕ
  size_le : bytes.length ≤ Segment.kSize
  addr_pos : 0 < addr
  addr_le : addr + Segment.kSize ≤ 2 ^ 63

namespace Segment

/-- `size`. -/
def size (s : Segment) : ℕ := s.bytes.length

/-- The array as a whole, valid data and the bytes behind it. -/
def mem (s : Segment) (i : ℕ) : Byte := s.bytes.getD i (s.rest i)

/-- A zero-initialised segment, as `make_shared<Segment>()` returns it. -/
def blank : Segment where
  bytes := []
  rest := fun _ => 0
  addr := 8
  size_le := Nat.zero_le _
  addr_pos := by decide
  addr_le := by decide

/-- `Remaining`. -/
def remaining (s : Segment) : ℕ := kSize - s.size

/-- `Append(src, len)`: copies what fits. -/
def append (s : Segment) (src : List Byte) : Segment :=
  { s with
    bytes := s.bytes ++ src.take s.remaining
    size_le := by
      have h := s.size_le
      simp only [List.length_append, List.length_take, remaining, size]
      omega }

/-- `seg->size = 0`: the array keeps what it held. -/
def reset (s : Segment) : Segment :=
  { s with bytes := [], rest := s.mem, size_le := Nat.zero_le _ }

/-- Move the bytes from `off` on to the start of the array and cut `size` to them (`memmove` in
`Compact`). -/
def shift (s : Segment) (off : ℕ) : Segment :=
  { s with
    bytes := s.bytes.drop off
    rest := s.mem
    size_le := by
      have h := s.size_le
      rw [List.length_drop]
      omega }

/-- A segment just filled with `l` from its start on, as after a read into it. -/
def fill (s : Segment) (l : List Byte) (h : l.length ≤ kSize) : Segment :=
  { s with bytes := l, rest := s.mem, size_le := h }

/-- A segment holding the bytes `l`, for inputs of examples. -/
def ofBytes (l : List Byte) (h : l.length ≤ kSize := by decide) : Segment := blank.fill l h

@[simp] theorem bytes_blank : blank.bytes = [] := rfl
@[simp] theorem bytes_reset (s : Segment) : s.reset.bytes = [] := rfl
@[simp] theorem bytes_shift (s : Segment) (off : ℕ) : (s.shift off).bytes = s.bytes.drop off := rfl
@[simp] theorem bytes_fill (s : Segment) (l : List Byte) (h : l.length ≤ kSize) :
    (s.fill l h).bytes = l := rfl
@[simp] theorem bytes_ofBytes (l : List Byte) (h : l.length ≤ kSize) : (ofBytes l h).bytes = l := rfl

theorem mem_of_lt (s : Segment) {i : ℕ} (h : i < s.bytes.length) : s.mem i = s.bytes[i] := by
  simp [mem, h]

/-- Appending writes behind the valid data only. -/
theorem mem_append (s : Segment) (src : List Byte) {i : ℕ} (h : i < s.size) :
    (s.append src).mem i = s.mem i := by
  have h' : i < s.bytes.length := h
  simp [mem, append, List.getElem?_append_left h']

end Segment

/-! ### Chains -/

/-- `BufferChain`: the segments, the bytes consumed of the front one, the cached number of unconsumed
bytes, and which allocator's recycler is set, if any. -/
structure BufferChain (σ : Type) where
  segments : List σ := []
  consumedOffset : ℕ := 0
  totalSize : ℕ := 0
  recycleCallback : Option ℕ := none

/-- A chain by value. -/
abbrev Chain := BufferChain Segment

namespace BufferChain

variable {σ : Type} (deref : σ → Segment)

/-- The byte list a chain stands for. -/
def bytes (c : BufferChain σ) : List Byte :=
  (Chunks.flat (fun s => (deref s).bytes) c.segments).drop c.consumedOffset

/-- The representation invariant. -/
structure WF (c : BufferChain σ) : Prop where
  nonempty : ∀ s ∈ c.segments, (deref s).bytes ≠ []
  offset_lt : ∀ s ∈ c.segments.head?, c.consumedOffset < (deref s).size
  offset_nil : c.segments = [] → c.consumedOffset = 0
  size_eq : c.totalSize = (c.bytes deref).length

/-- `Size`. -/
def size (c : BufferChain σ) : ℕ := c.totalSize

/-- `Empty`: asks the cached size, not the segments. -/
def empty (c : BufferChain σ) : Bool := c.totalSize == 0

/-- `Append`: an empty segment is dropped. -/
def append (c : BufferChain σ) (s : σ) : BufferChain σ :=
  if 0 < (deref s).size then
    { c with segments := c.segments ++ [s], totalSize := c.totalSize + (deref s).size }
  else c

/-- The loop of `Consume` on (segments, front offset, cached size): the new triple, and the segments
that were consumed entirely, in order. -/
def consumeLoop : List σ → ℕ → ℕ → ℕ → List σ × ℕ × ℕ × List σ
  | [], off, total, _ => ([], off, total, [])
  | s :: ss, off, total, n =>
    if n = 0 then (s :: ss, off, total, [])
    else
      let available := (deref s).size - off
      if available ≤ n then
        let r := consumeLoop ss 0 (total - available) (n - available)
        (r.1, r.2.1, r.2.2.1, s :: r.2.2.2)
      else (s :: ss, off + n, total - n, [])

/-- `Consume`. -/
def consume (c : BufferChain σ) (n : ℕ) : BufferChain σ :=
  let r := consumeLoop deref c.segments c.consumedOffset c.totalSize n
  { c with segments := r.1, consumedOffset := r.2.1, totalSize := r.2.2.1 }

/-- The segments `Consume` takes off the chain, in the order it hands them to the recycler. -/
def consumed (c : BufferChain σ) (n : ℕ) : List σ :=
  (consumeLoop deref c.segments c.consumedOffset c.totalSize n).2.2.2

/-- The walk to the segment that holds `offset`, common to all positional reads. -/
def seek (c : BufferChain σ) (offset : ℕ) : List σ × ℕ :=
  Chunks.locate (fun s => (deref s).bytes) c.segments (c.consumedOffset + offset)

/-- `IsContiguous`. -/
def isContiguous (c : BufferChain σ) (offset len : ℕ) : Bool :=
  if c.segments.isEmpty then false
  else if len = 0 then decide (offset ≤ c.totalSize)
  else
    match c.seek deref offset with
    | ([], _) => false
    | (s :: _, pos) => decide (pos + len ≤ (deref s).size)

/-- `DataAt`: the segment pointed into and the index in its array; `none` where the assertion fails. -/
def dataAt (c : BufferChain σ) (offset : ℕ) : Option (σ × ℕ) :=
  match c.seek deref offset with
  | ([], _) => none
  | (s :: _, pos) => some (s, pos)

/-- `GetSegmentAt`; `none` where the assertion fails. -/
def getSegmentAt (c : BufferChain σ) (offset : ℕ) : Option σ :=
  match c.seek deref offset with
  | ([], _) => none
  | (s :: _, _) => some s

/-- `CopyTo`: the bytes written to the destination. -/
def copyTo (c : BufferChain σ) (offset len : ℕ) : List Byte :=
  if len = 0 then []
  else
    let at' := c.seek deref offset
    Chunks.gather (fun s => (deref s).bytes) at'.1 at'.2 len

/-- `ContiguousSize`. -/
def contiguousSize (c : BufferChain σ) : ℕ :=
  match c.segments with
  | [] => 0
  | s :: _ => (deref s).size - c.consumedOffset

/-- `Clear`. -/
def clear (c : BufferChain σ) : BufferChain σ :=
  { c with segments := [], consumedOffset := 0, totalSize := 0 }

/-- `IsPartiallyConsumed`. -/
def isPartiallyConsumed (c : BufferChain σ) : Bool := decide (0 < c.consumedOffset)

/-- `WouldOverflow`: the subtraction is on `size_t`. -/
def wouldOverflow (c : BufferChain σ) (n limit : ℕ) : Bool :=
  decide (sizeSub limit c.totalSize < n)

/-- What the implicit move leaves behind: the deque is empty, the two counters keep their values. -/
def movedFrom (c : BufferChain σ) : BufferChain σ := { c with segments := [] }

/-- `Splice` of a chain that is not partially consumed: the target and what is left of the source. -/
def spliceCompacted (c other : BufferChain σ) : BufferChain σ × BufferChain σ :=
  ({ segments := c.segments ++ other.segments
     consumedOffset := c.consumedOffset
     totalSize := c.totalSize + other.totalSize
     recycleCallback := c.recycleCallback <|> other.recycleCallback },
    { other with segments := [], consumedOffset := 0, totalSize := 0 })

/-! ### The byte view -/

theorem wf_nil (r : Option ℕ) : WF deref { recycleCallback := r } where
  nonempty := by simp
  offset_lt := by simp
  offset_nil := by simp
  size_eq := by simp [bytes]

@[simp] theorem bytes_nil (r : Option ℕ) : bytes deref { recycleCallback := r } = [] := by
  simp [bytes]

@[simp] theorem bytes_clear (c : BufferChain σ) : c.clear.bytes deref = [] := by
  simp [bytes, clear]

theorem wf_clear (c : BufferChain σ) : c.clear.WF deref := wf_nil deref c.recycleCallback

/-- The front segment of a well-formed chain and what follows it. -/
theorem bytes_cons {c : BufferChain σ} (h : c.WF deref) {s : σ} {ss : List σ}
    (hs : c.segments = s :: ss) :
    c.bytes deref = (deref s).bytes.drop c.consumedOffset ++
      Chunks.flat (fun s => (deref s).bytes) ss := by
  have hlt : c.consumedOffset < (deref s).bytes.length := h.offset_lt s (by simp [hs])
  rw [bytes, hs, Chunks.flat_cons, List.drop_append_of_le_length (by omega)]

theorem bytes_eq_nil_iff {c : BufferChain σ} (h : c.WF deref) :
    c.bytes deref = [] ↔ c.segments = [] := by
  cases hs : c.segments with
  | nil => simp [bytes, hs]
  | cons s ss =>
    have hlt : c.consumedOffset < (deref s).bytes.length := h.offset_lt s (by simp [hs])
    rw [bytes_cons deref h hs]
    simp only [List.append_eq_nil_iff, List.drop_eq_nil_iff, reduceCtorEq, iff_false, not_and]
    omega

theorem empty_iff {c : BufferChain σ} (h : c.WF deref) : c.empty = true ↔ c.bytes deref = [] := by
  simp [empty, h.size_eq]

theorem wf_of_parts {c : BufferChain σ} (h1 : ∀ s ∈ c.segments, (deref s).bytes ≠ [])
    (h2 : ∀ s ∈ c.segments.head?, c.consumedOffset < (deref s).size)
    (h3 : c.segments = [] → c.consumedOffset = 0)
    (h4 : c.totalSize + c.consumedOffset =
      (Chunks.flat (fun s => (deref s).bytes) c.segments).length) : c.WF deref :=
  ⟨h1, h2, h3, by rw [bytes, List.length_drop]; omega⟩

theorem WF.offset_le {c : BufferChain σ} (h : c.WF deref) :
    c.consumedOffset ≤ (Chunks.flat (fun s => (deref s).bytes) c.segments).length := by
  cases hs : c.segments with
  | nil => simp [h.offset_nil hs]
  | cons s ss =>
    have hlt : c.consumedOffset < (deref s).bytes.length := h.offset_lt s (by simp [hs])
    rw [Chunks.flat_cons, List.length_append]
    omega

/-- The cached size and the front offset add up to the bytes stored. -/
theorem WF.total_add {c : BufferChain σ} (h : c.WF deref) :
    c.totalSize + c.consumedOffset =
      (Chunks.flat (fun s => (deref s).bytes) c.segments).length := by
  have h1 := h.offset_le
  have h2 := h.size_eq
  rw [bytes, List.length_drop] at h2
  omega

/-! ### Append and Consume -/

theorem bytes_append {c : BufferChain σ} (h : c.WF deref) (s : σ) :
    (c.append deref s).bytes deref = c.bytes deref ++ (deref s).bytes := by
  by_cases hs : 0 < (deref s).size
  · have hle := h.offset_le
    simp only [append, if_pos hs, bytes, Chunks.flat_append, Chunks.flat_cons, Chunks.flat_nil,
      List.append_nil]
    rw [List.drop_append_of_le_length hle]
  · have hnil : (deref s).bytes = [] := by simpa [Segment.size] using hs
    rw [append, if_neg hs, hnil, List.append_nil]

theorem wf_append {c : BufferChain σ} (h : c.WF deref) (s : σ) : (c.append deref s).WF deref := by
  by_cases hs : 0 < (deref s).size
  · have hb := bytes_append deref h s
    rw [append, if_pos hs] at hb ⊢
    refine ⟨?_, ?_, ?_, ?_⟩
    · intro t ht
      rcases List.mem_append.1 ht with ht | ht
      · exact h.nonempty t ht
      · obtain rfl : t = s := by simpa using ht
        exact List.length_pos_iff.1 hs
    · intro t ht
      cases hc : c.segments with
      | nil =>
        obtain rfl : s = t := by simpa [hc] using ht
        simpa [h.offset_nil hc] using hs
      | cons u us => exact h.offset_lt t (by simpa [hc] using ht)
    · simp
    · rw [hb, List.length_append, ← h.size_eq]
      rfl
  · rw [append, if_neg hs]
    exact h

/-- The loop of `Consume` keeps the invariant and drops the bytes asked for. -/
theorem consumeLoop_spec (ss : List σ) (off total n : ℕ) (r : Option ℕ)
    (h : WF deref ⟨ss, off, total, r⟩) :
    WF deref ⟨(consumeLoop deref ss off total n).1, (consumeLoop deref ss off total n).2.1,
        (consumeLoop deref ss off total n).2.2.1, r⟩ ∧
      bytes deref ⟨(consumeLoop deref ss off total n).1, (consumeLoop deref ss off total n).2.1,
          (consumeLoop deref ss off total n).2.2.1, r⟩ =
        (bytes deref ⟨ss, off, total, r⟩).drop n := by
  induction ss generalizing off total n with
  | nil =>
    refine ⟨by simpa only [consumeLoop] using h, ?_⟩
    simp [consumeLoop, bytes]
  | cons s ss ih =>
    have hlt : off < (deref s).bytes.length := h.offset_lt s (by simp)
    have htot := h.total_add
    have hb := bytes_cons deref h rfl
    simp only [Chunks.flat_cons, List.length_append] at htot hb
    by_cases h0 : n = 0
    · subst h0
      simp only [consumeLoop, if_true, List.drop_zero, and_true]
      exact h
    by_cases hle : (deref s).size - off ≤ n
    · have hnext : WF deref ⟨ss, 0, total - ((deref s).size - off), r⟩ := by
        refine wf_of_parts deref (fun t ht => h.nonempty t (by simp [ht])) ?_ (by simp) ?_
        · intro t ht
          have hmem : t ∈ s :: ss := List.mem_cons_of_mem _ (List.mem_of_mem_head? ht)
          exact List.length_pos_iff.2 (h.nonempty t hmem)
        · simp only [Segment.size]
          omega
      obtain ⟨hwf, hbytes⟩ := ih 0 (total - ((deref s).size - off)) (n - ((deref s).size - off)) hnext
      simp only [consumeLoop, if_neg h0, if_pos hle]
      refine ⟨hwf, ?_⟩
      rw [hbytes, hb, List.drop_append, List.drop_of_length_le (l := List.drop off _)
        (by simpa [Segment.size] using hle), List.nil_append, List.length_drop]
      rfl
    · simp only [consumeLoop, if_neg h0, if_neg hle]
      have hlt' : off + n < (deref s).bytes.length := by simp only [Segment.size] at hle; omega
      refine ⟨wf_of_parts deref h.nonempty ?_ (by simp) ?_, ?_⟩
      · intro t ht
        obtain rfl : s = t := by simpa using ht
        exact hlt'
      · simp only [Chunks.flat_cons, List.length_append]
        omega
      · simp only [bytes, List.drop_drop]

theorem wf_consume {c : BufferChain σ} (h : c.WF deref) (n : ℕ) : (c.consume deref n).WF deref :=
  (consumeLoop_spec deref c.segments c.consumedOffset c.totalSize n c.recycleCallback h).1

/-- `Consume(n)` drops the first `n` bytes, all of them if there are fewer. -/
theorem bytes_consume {c : BufferChain σ} (h : c.WF deref) (n : ℕ) :
    (c.consume deref n).bytes deref = (c.bytes deref).drop n :=
  (consumeLoop_spec deref c.segments c.consumedOffset c.totalSize n c.recycleCallback h).2

/-! ### Positional reads -/

section Reads

variable {c : BufferChain σ}

theorem copyTo_eq (c : BufferChain σ) (offset len : ℕ) :
    c.copyTo deref offset len = ((c.bytes deref).drop offset).take len := by
  by_cases h0 : len = 0
  · simp [copyTo, h0]
  · rw [copyTo, if_neg h0]
    simp only [seek, Chunks.gather_locate, bytes, List.drop_drop]

/-- The slice `[offset, offset + len)` of the unconsumed bytes lies in one segment. -/
def InOneSegment (c : BufferChain σ) (offset len : ℕ) : Prop :=
  Chunks.InOnePiece (fun s => (deref s).bytes) c.segments (c.consumedOffset + offset) len

theorem isContiguous_iff (c : BufferChain σ) (offset : ℕ) {len : ℕ} (hlen : 0 < len) :
    c.isContiguous deref offset len = true ↔ c.InOneSegment deref offset len := by
  rw [InOneSegment, ← Chunks.locate_fits_iff _ _ _ hlen, isContiguous]
  have h0 : len ≠ 0 := by omega
  cases hseg : c.segments with
  | nil => simp [Chunks.locate]
  | cons t ts =>
    rw [if_neg (by simp), if_neg h0, ← hseg]
    cases hs : c.seek deref offset with
    | mk rest pos =>
      rw [seek] at hs
      rw [hs]
      cases rest with
      | nil => simp
      | cons s ss =>
        constructor
        · intro h
          exact ⟨s, ss, pos, rfl, of_decide_eq_true h⟩
        · rintro ⟨s', ss', pos', heq, h⟩
          simp only [Prod.mk.injEq, List.cons.injEq] at heq
          obtain ⟨⟨rfl, rfl⟩, rfl⟩ := heq
          exact decide_eq_true h

/-- `DataAt` inside the chain points at the byte of that offset. -/
theorem dataAt_spec (c : BufferChain σ) {offset : ℕ} (h : offset < (c.bytes deref).length) :
    ∃ s pos, c.dataAt deref offset = some (s, pos) ∧ s ∈ c.segments ∧ pos < (deref s).size ∧
      (deref s).bytes[pos]? = (c.bytes deref)[offset]? ∧
      ((c.bytes deref).drop offset = (deref s).bytes.drop pos ++
        (c.bytes deref).drop (offset + ((deref s).size - pos))) := by
  rw [bytes, List.length_drop] at h
  obtain ⟨s, rest, p, hl, hp⟩ :=
    Chunks.locate_of_lt (fun s => (deref s).bytes)
      (show c.consumedOffset + offset < (Chunks.flat (fun s => (deref s).bytes) c.segments).length by
        omega)
  obtain ⟨pre, hpre, -⟩ :=
    Chunks.locate_split (fun s => (deref s).bytes) c.segments (c.consumedOffset + offset)
  have hmem : s ∈ c.segments := by rw [hpre, hl]; simp
  have hdrop := Chunks.locate_drop (fun s => (deref s).bytes) c.segments (c.consumedOffset + offset)
  rw [hl, Chunks.flat_cons, List.drop_append_of_le_length (by omega)] at hdrop
  refine ⟨s, p, by rw [dataAt, seek, hl], hmem, hp, ?_, ?_⟩
  · rw [Chunks.locate_getElem? _ hl, bytes, List.getElem?_drop]
  · rw [bytes, List.drop_drop, ← hdrop]
    congr 1
    rw [List.drop_drop, ← Nat.add_assoc, ← List.drop_drop, ← hdrop, Segment.size,
      List.drop_append, List.drop_of_length_le (by simp), List.length_drop, Nat.sub_self]
    rfl

theorem getSegmentAt_eq (c : BufferChain σ) (offset : ℕ) :
    c.getSegmentAt deref offset = (c.dataAt deref offset).map Prod.fst := by
  rw [getSegmentAt, dataAt]
  split <;> rfl

/-- A contiguous slice is read from one segment. -/
theorem contiguous_slice {offset len : ℕ} (hc : c.isContiguous deref offset len = true)
    (hlen : 0 < len) :
    ∃ s pos, c.dataAt deref offset = some (s, pos) ∧ pos + len ≤ (deref s).size ∧
      ((c.bytes deref).drop offset).take len = ((deref s).bytes.drop pos).take len := by
  rw [isContiguous_iff deref c offset hlen, InOneSegment,
    ← Chunks.locate_fits_iff _ _ _ hlen] at hc
  obtain ⟨s, rest, p, hl, hp⟩ := hc
  refine ⟨s, p, by rw [dataAt, seek, hl], hp, ?_⟩
  have hdrop := Chunks.locate_drop (fun s => (deref s).bytes) c.segments (c.consumedOffset + offset)
  rw [hl, Chunks.flat_cons, List.drop_append_of_le_length (by omega)] at hdrop
  rw [bytes, List.drop_drop, ← hdrop, List.take_append_of_le_length]
  rw [List.length_drop]
  omega

/-- The contiguous front of a non-empty chain: where `DataAt(0)` points, and what consuming exactly
`ContiguousSize()` bytes leaves. -/
theorem front_spec (h : c.WF deref) {s : σ} {ss : List σ} (hs : c.segments = s :: ss) :
    c.dataAt deref 0 = some (s, c.consumedOffset) ∧
      c.contiguousSize deref = ((deref s).bytes.drop c.consumedOffset).length ∧
      0 < c.contiguousSize deref ∧
      c.bytes deref = (deref s).bytes.drop c.consumedOffset ++
        (c.consume deref (c.contiguousSize deref)).bytes deref := by
  have hlt : c.consumedOffset < (deref s).bytes.length := h.offset_lt s (by simp [hs])
  have hsize : c.contiguousSize deref = ((deref s).bytes.drop c.consumedOffset).length := by
    rw [contiguousSize, hs, List.length_drop]
    rfl
  refine ⟨?_, hsize, by rw [hsize, List.length_drop]; omega, ?_⟩
  · rw [dataAt, seek, hs, Nat.add_zero, Chunks.locate, if_neg (by omega)]
  · rw [bytes_consume deref h, hsize, bytes_cons deref h hs, List.drop_left]

end Reads

/-! ### Splicing chains that are not partially consumed -/

theorem bytes_spliceCompacted {c other : BufferChain σ} (hc : c.WF deref)
    (ho : other.consumedOffset = 0) :
    (c.spliceCompacted other).1.bytes deref = c.bytes deref ++ other.bytes deref := by
  have hle := hc.offset_le
  simp only [spliceCompacted, bytes, Chunks.flat_append, ho, List.drop_zero]
  rw [List.drop_append_of_le_length hle]

theorem wf_spliceCompacted {c other : BufferChain σ} (hc : c.WF deref) (ho : other.WF deref)
    (h0 : other.consumedOffset = 0) : (c.spliceCompacted other).1.WF deref := by
  have htc := hc.total_add
  have hto := ho.total_add
  refine wf_of_parts deref ?_ ?_ ?_ ?_
  · intro s hs
    rcases List.mem_append.1 hs with hs | hs
    · exact hc.nonempty s hs
    · exact ho.nonempty s hs
  · intro s hs
    cases hsc : c.segments with
    | nil =>
      simp only [spliceCompacted, hsc, List.nil_append, hc.offset_nil hsc] at hs ⊢
      exact List.length_pos_iff.2 (ho.nonempty s (List.mem_of_mem_head? hs))
    | cons t ts => exact hc.offset_lt s (by simpa [spliceCompacted, hsc] using hs)
  · intro hnil
    exact hc.offset_nil (List.append_eq_nil_iff.1 hnil).1
  · simp only [spliceCompacted, Chunks.flat_append, List.length_append]
    omega

/-! ### Compacting the front segment -/

/-- **Compacting.**  A chain whose front segment was exchanged for one that holds just the unconsumed
bytes of it, all others unchanged, stands for the same bytes. -/
theorem compacted_spec {h : σ → Segment} (h' : σ → Segment) {c : BufferChain σ} (hc : c.WF h)
    {first : σ} (new : σ) {rest : List σ} (hs : c.segments = first :: rest)
    (hnew : (h' new).bytes = (h first).bytes.drop c.consumedOffset)
    (hrest : ∀ s ∈ rest, (h' s).bytes = (h s).bytes) :
    WF h' { c with segments := new :: rest, consumedOffset := 0 } ∧
      bytes h' { c with segments := new :: rest, consumedOffset := 0 } = c.bytes h := by
  have hlt : c.consumedOffset < (h first).bytes.length := hc.offset_lt first (by simp [hs])
  have hb := bytes_cons h hc hs
  have hflat := Chunks.flat_congr (fun s => (h' s).bytes) hrest
  have hbytes : bytes h' { c with segments := new :: rest, consumedOffset := 0 } = c.bytes h := by
    rw [hb, bytes, List.drop_zero, Chunks.flat_cons, hnew, hflat]
  refine ⟨⟨?_, ?_, by simp, by rw [hbytes]; exact hc.size_eq⟩, hbytes⟩
  · intro s hmem
    rcases List.mem_cons.1 hmem with rfl | hmem
    · rw [hnew, ne_eq, List.drop_eq_nil_iff]
      omega
    · rw [hrest s hmem]
      exact hc.nonempty s (by simp [hs, hmem])
  · intro s hmem
    obtain rfl : new = s := by simpa using hmem
    show 0 < (h' new).size
    rw [Segment.size, hnew, List.length_drop]
    omega

end BufferChain

/-! ### Chains by value

`Compact` and the operations that use it write to segments.  On a chain by value the new front segment
replaces the old one; `SegmentStore` distinguishes writing in place from writing to a fresh segment. -/

namespace Chain

open BufferChain

/-- The byte list of a chain by value. -/
abbrev bytes (c : Chain) : List Byte := BufferChain.bytes id c

/-- The representation invariant of a chain by value. -/
abbrev WF (c : Chain) : Prop := BufferChain.WF id c

theorem size_eq {c : Chain} (h : WF c) : c.size = (bytes c).length := h.size_eq

theorem totalSize_eq {c : Chain} (h : WF c) : c.totalSize = (bytes c).length := h.size_eq

theorem empty_iff {c : Chain} (h : WF c) : c.empty = true ↔ bytes c = [] := BufferChain.empty_iff id h

theorem not_empty_iff {c : Chain} (h : WF c) : c.empty = false ↔ bytes c ≠ [] := by
  rw [ne_eq, ← empty_iff h, Bool.not_eq_true]

theorem wf_empty (r : Option ℕ) : WF { recycleCallback := r } := wf_nil id r

theorem wf_cleared (c : Chain) : WF c.clear := wf_clear id c

@[simp] theorem bytes_cleared (c : Chain) : bytes c.clear = [] := bytes_clear id c

theorem wf_consumed {c : Chain} (h : WF c) (n : ℕ) : WF (c.consume id n) := wf_consume id h n

theorem bytes_consumed {c : Chain} (h : WF c) (n : ℕ) : bytes (c.consume id n) = (bytes c).drop n :=
  bytes_consume id h n

/-- Consuming a front chunk up to `n`. -/
theorem bytes_consumed_within {c : Chain} (h : WF c) {chunk : List Byte} {n : ℕ}
    (hbytes : bytes c = chunk ++ bytes (c.consume id chunk.length)) (hn : n ≤ chunk.length) :
    bytes (c.consume id n) = chunk.drop n ++ bytes (c.consume id chunk.length) := by
  rw [bytes_consumed h, hbytes, List.drop_append_of_le_length hn]

/-- Consuming at most what there is. -/
theorem bytes_consumed_min {c : Chain} (h : WF c) (n : ℕ) :
    bytes (c.consume id (min n c.size)) = (bytes c).drop n := by
  rw [bytes_consumed h, size_eq h]
  rcases Nat.le_total n (bytes c).length with hle | hle
  · rw [Nat.min_eq_left hle]
  · rw [Nat.min_eq_right hle, List.drop_length, List.drop_of_length_le hle]

theorem wf_appended {c : Chain} (h : WF c) (s : Segment) : WF (BufferChain.append id c s) :=
  wf_append id h s

theorem bytes_appended {c : Chain} (h : WF c) (s : Segment) :
    bytes (BufferChain.append id c s) = bytes c ++ s.bytes := bytes_append id h s

/-- `SetRecycleCallback` does not touch the data. -/
theorem wf_recycler {c : Chain} (h : WF c) (r : Option ℕ) : WF { c with recycleCallback := r } :=
  ⟨h.nonempty, h.offset_lt, h.offset_nil, h.size_eq⟩

theorem bytes_movedFrom (c : Chain) : bytes c.movedFrom = [] := by
  simp [bytes, BufferChain.bytes, movedFrom]

/-- Segments appended one after the other. -/
theorem appendAll_spec {chain : Chain} (hwf : WF chain) (ss : List Segment) :
    WF (ss.foldl (BufferChain.append id) chain) ∧
      bytes (ss.foldl (BufferChain.append id) chain) = bytes chain ++ ss.flatMap Segment.bytes := by
  induction ss generalizing chain with
  | nil => exact ⟨hwf, (List.append_nil _).symm⟩
  | cons s ss ih =>
    obtain ⟨h1, h2⟩ := ih (wf_appended hwf s)
    rw [bytes_appended hwf, List.append_assoc] at h2
    exact ⟨h1, h2⟩

/-- The contiguous front of a chain that is not empty. -/
theorem front {c : Chain} (h : WF c) (he : c.empty = false) :
    ∃ s, c.dataAt id 0 = some (s, c.consumedOffset) ∧
      c.contiguousSize id = (s.bytes.drop c.consumedOffset).length ∧
      0 < (s.bytes.drop c.consumedOffset).length ∧
      bytes c = s.bytes.drop c.consumedOffset ++ bytes (c.consume id (c.contiguousSize id)) := by
  cases hs : c.segments with
  | nil =>
    rw [not_empty_iff h, ne_eq, bytes_eq_nil_iff id h] at he
    exact absurd hs he
  | cons s ss =>
    obtain ⟨h1, h2, h3, h4⟩ := front_spec id h hs
    rw [h2] at h3
    exact ⟨s, h1, h2, h3, h4⟩

/-- `Compact`. -/
def compact (c : Chain) : Chain :=
  if c.consumedOffset = 0 then c
  else
    match c.segments with
    | [] => c
    | first :: rest =>
      { c with segments := first.shift c.consumedOffset :: rest, consumedOffset := 0 }

/-- `Splice`: the target and what is left of the source. -/
def splice (c other : Chain) : Chain × Chain :=
  if other.empty then (c, other)
  else c.spliceCompacted (if other.consumedOffset ≠ 0 then compact other else other)

/-- `CompactAndSplice`. -/
def compactAndSplice (c other : Chain) : Chain × Chain :=
  splice (if c.isPartiallyConsumed then compact c else c) other

/-- The loop of `AppendBytes`: each round takes a fresh segment and fills it. -/
def appendBytesLoop : ℕ → Chain → List Byte → Chain
  | 0, c, _ => c
  | fuel + 1, c, data =>
    if data.length = 0 then c
    else
      let seg := Segment.blank.append data
      appendBytesLoop fuel (BufferChain.append id c seg) (data.drop seg.size)

/-- `AppendBytes`: every round takes at least one byte, so `len` rounds are enough. -/
def appendBytes (c : Chain) (data : List Byte) : Chain := appendBytesLoop data.length c data

theorem compact_spec {c : Chain} (h : WF c) :
    WF (compact c) ∧ bytes (compact c) = bytes c ∧ (compact c).consumedOffset = 0 := by
  by_cases h0 : c.consumedOffset = 0
  · rw [compact, if_pos h0]
    exact ⟨h, rfl, h0⟩
  cases hs : c.segments with
  | nil => exact absurd (h.offset_nil hs) h0
  | cons first rest =>
    simp only [compact, if_neg h0, hs]
    obtain ⟨hwf, hbytes⟩ := compacted_spec id h _ hs
      (Segment.bytes_shift first c.consumedOffset) (fun _ _ => rfl)
    exact ⟨hwf, hbytes, trivial⟩

/-- `Splice` appends the bytes of the source and empties it. -/
theorem splice_spec {c other : Chain} (hc : WF c) (ho : WF other) :
    WF (splice c other).1 ∧ bytes (splice c other).1 = bytes c ++ bytes other ∧
      WF (splice c other).2 ∧ bytes (splice c other).2 = [] := by
  by_cases he : other.empty = true
  · have hnil := (empty_iff ho).1 he
    rw [splice, if_pos he]
    refine ⟨hc, ?_, ho, hnil⟩
    simp only [bytes, hnil, List.append_nil]
  · obtain ⟨hwf, hbytes, h0⟩ := compact_spec ho
    have hcompact : (if other.consumedOffset ≠ 0 then compact other else other) = compact other := by
      by_cases hz : other.consumedOffset = 0
      · simp [compact, hz]
      · simp [hz]
    rw [splice, if_neg he, hcompact]
    refine ⟨wf_spliceCompacted id hc hwf h0, ?_, wf_nil id _, bytes_nil id _⟩
    rw [bytes, bytes_spliceCompacted id hc h0]
    exact congrArg (_ ++ ·) hbytes

theorem compactAndSplice_spec {c other : Chain} (hc : WF c) (ho : WF other) :
    WF (compactAndSplice c other).1 ∧
      bytes (compactAndSplice c other).1 = bytes c ++ bytes other ∧
      WF (compactAndSplice c other).2 ∧ bytes (compactAndSplice c other).2 = [] := by
  rw [compactAndSplice]
  split
  · obtain ⟨hwf, hbytes, -⟩ := compact_spec hc
    have h := splice_spec hwf ho
    rw [hbytes] at h
    exact h
  · exact splice_spec hc ho

theorem appendBytesLoop_spec {fuel : ℕ} {c : Chain} (h : WF c) (data : List Byte)
    (hf : data.length ≤ fuel) :
    WF (appendBytesLoop fuel c data) ∧ bytes (appendBytesLoop fuel c data) = bytes c ++ data := by
  induction fuel generalizing c data with
  | zero =>
    obtain rfl : data = [] := List.length_eq_zero_iff.1 (by omega)
    exact ⟨h, by simp [appendBytesLoop]⟩
  | succ fuel ih =>
    by_cases h0 : data.length = 0
    · obtain rfl := List.length_eq_zero_iff.1 h0
      exact ⟨by simpa [appendBytesLoop] using h, by simp [appendBytesLoop]⟩
    · have hseg : (Segment.blank.append data).bytes = data.take Segment.kSize := rfl
      have hk : 0 < Segment.kSize := by decide
      simp only [appendBytesLoop, if_neg h0, Segment.size, hseg, List.length_take]
      obtain ⟨h1, h2⟩ := ih (wf_append id h (Segment.blank.append data))
        (data.drop (min Segment.kSize data.length)) (by rw [List.length_drop]; omega)
      refine ⟨h1, ?_⟩
      have htake : data.take Segment.kSize = data.take (min Segment.kSize data.length) := by
        rcases Nat.le_total Segment.kSize data.length with hle | hle
        · rw [Nat.min_eq_left hle]
        · rw [Nat.min_eq_right hle, List.take_length, List.take_of_length_le hle]
      rw [h2, bytes, bytes_append id h, List.append_assoc, id_eq, hseg, htake, List.take_append_drop]

/-- `AppendBytes` appends exactly the bytes given. -/
theorem appendBytes_spec {c : Chain} (h : WF c) (data : List Byte) :
    WF (appendBytes c data) ∧ bytes (appendBytes c data) = bytes c ++ data :=
  appendBytesLoop_spec h data (Nat.le_refl _)

end Chain

end DbnPipe
