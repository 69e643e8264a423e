import DbnPipe.Stream.ZstdDecompressor

/-!
# The pieces that the decoder writes

`ZSTD_decompressStream` as the loops of `DecompressChain` call it, without the component around it: the output
comes in pieces of at most one segment.

* `decodeChunk`, `decodeChunks` — **the pieces** written for a chunk, and for chunk after chunk;
* `length_decodeChunks` — none is longer than a segment;
* `piecewise` — the decoder that writes given pieces, one for each byte of its input; `decodeChunks_piecewise`.
-/

namespace DbnPipe.Zstd

variable {Z : ZstdDecoder}

/-- The decoder's state after a chunk from `pos` on, and the pieces it wrote; `none` where it fails. -/
def decodeChunk (Z : ZstdDecoder) (chunk : List Byte) : ℕ → ℕ → Z.State → Option (Z.State × List (List Byte))
  | 0, _, s => some (s, [])
  | fuel + 1, pos, s =>
    if chunk.length ≤ pos then some (s, [])
    else
      match Z.decompressStream s (chunk.drop pos) Segment.kSize with
      | .error _ => none
      | .ok t =>
        match decodeChunk Z chunk fuel (pos + t.consumed) t.state with
        | none => none
        | some r => some (r.1, if t.produced.length = 0 then r.2 else t.produced :: r.2)

/-- The same for chunk after chunk. -/
def decodeChunks (Z : ZstdDecoder) : List (List Byte) → Z.State → Option (Z.State × List (List Byte))
  | [], s => some (s, [])
  | chunk :: chunks, s =>
    match decodeChunk Z chunk (Z.rounds s chunk + 1) 0 s with
    | none => none
    | some r =>
      match decodeChunks Z chunks r.1 with
      | none => none
      | some r' => some (r'.1, r.2 ++ r'.2)

/-- At the end of a chunk nothing is written. -/
theorem decodeChunk_end {chunk : List Byte} {pos : ℕ} (h : chunk.length ≤ pos) (fuel : ℕ) (s : Z.State) :
    decodeChunk Z chunk fuel pos s = some (s, []) := by
  cases fuel with
  | zero => rfl
  | succ fuel => rw [decodeChunk, if_pos h]

/-- A call of the decoder, and the rest of the chunk. -/
theorem decodeChunk_ok {chunk : List Byte} {fuel pos : ℕ} {s : Z.State} (hpos : ¬chunk.length ≤ pos)
    {t : Decoded Z.State (chunk.drop pos) Segment.kSize} {r : Z.State × List (List Byte)}
    (ht : Z.decompressStream s (chunk.drop pos) Segment.kSize = .ok t)
    (hr : decodeChunk Z chunk fuel (pos + t.consumed) t.state = some r) :
    decodeChunk Z chunk (fuel + 1) pos s =
      some (r.1, if t.produced.length = 0 then r.2 else t.produced :: r.2) := by
  rw [decodeChunk, if_neg hpos, ht]
  simp only [hr]

/-- One more chunk. -/
theorem decodeChunks_cons {chunk : List Byte} {chunks : List (List Byte)} {s s' : Z.State}
    {pieces : List (List Byte)} (h : decodeChunks Z (chunk :: chunks) s = some (s', pieces)) :
    ∃ t first rest, decodeChunk Z chunk (Z.rounds s chunk + 1) 0 s = some (t, first) ∧
      decodeChunks Z chunks t = some (s', rest) ∧ pieces = first ++ rest := by
  rw [decodeChunks] at h
  split at h
  · cases h
  rename_i r hr
  split at h
  · cases h
  rename_i r' hr'
  simp only [Option.some.injEq, Prod.mk.injEq] at h
  obtain ⟨rfl, rfl⟩ := h
  exact ⟨r.1, r.2, r'.2, hr, hr', rfl⟩

/-- What several calls bring. -/
theorem decodeChunks_append {xs ys : List (List Byte)} {s s' : Z.State} {pieces : List (List Byte)}
    (h : decodeChunks Z (xs ++ ys) s = some (s', pieces)) :
    ∃ t first rest, decodeChunks Z xs s = some (t, first) ∧ decodeChunks Z ys t = some (s', rest) ∧
      pieces = first ++ rest := by
  induction xs generalizing s pieces with
  | nil => exact ⟨s, [], pieces, rfl, h, rfl⟩
  | cons x xs ih =>
    obtain ⟨t, first, rest, hx, hrest, rfl⟩ := decodeChunks_cons h
    obtain ⟨t', first', rest', hxs, hys, rfl⟩ := ih hrest
    refine ⟨t', first ++ first', rest', ?_, hys, (List.append_assoc _ _ _).symm⟩
    rw [decodeChunks, hx]
    simp only [hxs]

/-- A chunk in two steps of the loop. -/
theorem decodeChunk_succ {chunk : List Byte} {fuel pos : ℕ} {s s' : Z.State} {pieces : List (List Byte)}
    (hpos : ¬chunk.length ≤ pos) (h : decodeChunk Z chunk (fuel + 1) pos s = some (s', pieces)) :
    ∃ t rest, Z.decompressStream s (chunk.drop pos) Segment.kSize = .ok t ∧
      decodeChunk Z chunk fuel (pos + t.consumed) t.state = some (s', rest) ∧
      pieces = if t.produced.length = 0 then rest else t.produced :: rest := by
  rw [decodeChunk, if_neg hpos] at h
  split at h
  · cases h
  rename_i t ht
  split at h
  · cases h
  rename_i r hr
  simp only [Option.some.injEq, Prod.mk.injEq] at h
  obtain ⟨rfl, rfl⟩ := h
  exact ⟨t, r.2, ht, hr, rfl⟩

theorem length_decodeChunk {chunk : List Byte} {fuel pos : ℕ} {s s' : Z.State} {pieces : List (List Byte)}
    (h : decodeChunk Z chunk fuel pos s = some (s', pieces)) : ∀ piece ∈ pieces, piece.length ≤ Segment.kSize := by
  induction fuel generalizing pos s pieces with
  | zero =>
    simp only [decodeChunk, Option.some.injEq, Prod.mk.injEq] at h
    rw [← h.2]
    exact fun _ hm => absurd hm List.not_mem_nil
  | succ fuel ih =>
    by_cases hpos : chunk.length ≤ pos
    · rw [decodeChunk, if_pos hpos] at h
      simp only [Option.some.injEq, Prod.mk.injEq] at h
      rw [← h.2]
      exact fun _ hm => absurd hm List.not_mem_nil
    · obtain ⟨t, rest, -, hrest, rfl⟩ := decodeChunk_succ hpos h
      intro piece hm
      split at hm
      · exact ih hrest piece hm
      · rcases List.mem_cons.mp hm with rfl | hm
        · exact t.produced_le
        · exact ih hrest piece hm

/-- **A piece fits in a segment.** -/
theorem length_decodeChunks {chunks : List (List Byte)} {s s' : Z.State} {pieces : List (List Byte)}
    (h : decodeChunks Z chunks s = some (s', pieces)) : ∀ piece ∈ pieces, piece.length ≤ Segment.kSize := by
  induction chunks generalizing s pieces with
  | nil =>
    simp only [decodeChunks, Option.some.injEq, Prod.mk.injEq] at h
    rw [← h.2]
    exact fun _ hm => absurd hm List.not_mem_nil
  | cons chunk chunks ih =>
    obtain ⟨t, first, rest, hfirst, hrest, rfl⟩ := decodeChunks_cons h
    intro piece hm
    rcases List.mem_append.mp hm with hm | hm
    · exact length_decodeChunk hfirst piece hm
    · exact ih hrest piece hm

/-! ### A decoder of given pieces -/

/-- The decoder that writes the `i`-th piece for the `i`-th byte of its input. -/
def piecewise (pieces : List (List Byte)) : ZstdDecoder where
  State := ℕ
  start := 0
  decompressStream i input cap :=
    .ok
      { state := i + 1
        consumed := min 1 input.length
        produced := (pieces.getD i []).take cap
        result := pieces.length - (i + 1)
        consumed_le := Nat.min_le_right _ _
        produced_le := List.length_take_le _ _ }
  rounds _ input := input.length
  progress := by
    intro i input cap t ht hne _
    cases ht
    have hpos : 0 < input.length := List.length_pos_iff.mpr hne
    simp only [List.length_drop]
    omega

/-- It writes its pieces, those that are left, for as many bytes. -/
theorem decodeChunk_piecewise {pieces : List (List Byte)} (hne : ∀ p ∈ pieces, p ≠ [])
    (hle : ∀ p ∈ pieces, p.length ≤ Segment.kSize) (chunk : List Byte) {fuel pos : ℕ}
    (hlen : chunk.length = pieces.length) (hpos : pos ≤ chunk.length) (hfuel : chunk.length - pos ≤ fuel) :
    decodeChunk (piecewise pieces) chunk fuel pos pos = some (chunk.length, pieces.drop pos) := by
  have hend : ∀ {fuel pos : ℕ}, pos ≤ chunk.length → chunk.length ≤ pos →
      decodeChunk (piecewise pieces) chunk fuel pos pos = some (chunk.length, pieces.drop pos) := by
    intro fuel pos h1 h2
    refine (decodeChunk_end h2 fuel _).trans ?_
    rewrite [Nat.le_antisymm h1 h2, hlen, List.drop_length]
    rfl
  induction fuel generalizing pos with
  | zero => exact hend hpos (by omega)
  | succ fuel ih =>
    by_cases hle' : chunk.length ≤ pos
    · exact hend hpos hle'
    have hlt : pos < pieces.length := by omega
    have hmem : pieces[pos] ∈ pieces := List.getElem_mem hlt
    have hpiece : (pieces.getD pos []).take Segment.kSize = pieces[pos] := by
      rw [List.getD_eq_getElem?_getD, List.getElem?_eq_getElem hlt, Option.getD_some,
        List.take_of_length_le (hle _ hmem)]
    have hmin : min 1 (chunk.drop pos).length = 1 := by rw [List.length_drop]; omega
    have hnil : ¬pieces[pos].length = 0 := fun h0 => hne _ hmem (List.length_eq_zero_iff.mp h0)
    have hnext : decodeChunk (piecewise pieces) chunk fuel (pos + min 1 (chunk.drop pos).length) (pos + 1) =
        some (chunk.length, pieces.drop (pos + 1)) := by
      rewrite [hmin]
      exact ih (by omega) (by omega)
    refine (decodeChunk_ok (Z := piecewise pieces) (s := pos) hle' rfl hnext).trans ?_
    simp only [piecewise, hpiece, if_neg hnil]
    rewrite [List.drop_eq_getElem_cons hlt]
    rfl

/-- So one chunk brings all of them. -/
theorem decodeChunks_piecewise {pieces : List (List Byte)} (hne : ∀ p ∈ pieces, p ≠ [])
    (hle : ∀ p ∈ pieces, p.length ≤ Segment.kSize) {chunk : List Byte} (hlen : chunk.length = pieces.length) :
    decodeChunks (piecewise pieces) [chunk] (piecewise pieces).start = some (chunk.length, pieces) := by
  have h : decodeChunk (piecewise pieces) chunk ((piecewise pieces).rounds (piecewise pieces).start chunk + 1) 0
      (piecewise pieces).start = some (chunk.length, pieces) :=
    decodeChunk_piecewise hne hle chunk hlen (Nat.zero_le _) (Nat.le_succ _)
  rw [decodeChunks, h]
  simp only [decodeChunks, List.append_nil]
  rfl

end DbnPipe.Zstd
