import DbnPipe.Pipeline.Truncation
import DbnPipe.Stream.ZstdPieces
import Mathlib.Algebra.GroupWithZero.Nat

/-!
# Metadata behind the output limit

`ZstdDecompressor` in front of a parser that is not suspended: the parser leaves the metadata in the output chain
until it is complete, and the chain has a limit.

* `backlog` — **what the parser leaves in the chain**: all there is up to the end of the metadata, then less than a
  record;
* `Room` — each piece that the decoder writes finds room behind the backlog;
* `Feeding`, `Overflowed` — a component on which the stream comes in, and one that has given it up;
* `chunkLoop_room`, `chainLoop_room`, `run_room` — the loops, and so a run, end in the one or the other;
* `forwarded_iff` — the records behind the metadata reach the sink exactly when the piece that completes it fits;
* `zeroStream` — metadata of any size, in blocks of one size.
-/

namespace DbnPipe.Zstd

open Dbn Framing

/-! ### The backlog -/

/-- What the parser leaves in the chain of the bytes `seen`. -/
def backlog (seen : List Byte) : ℕ := (feed metadataPreamble recordFramer .start seen).2.buffer.length

/-- A piece adds at most its length. -/
theorem backlog_append_le (seen x : List Byte) : backlog (seen ++ x) ≤ backlog seen + x.length := by
  have hsuffix :=
    (feed_suffix metadataPreamble recordFramer (feed metadataPreamble recordFramer .start seen).2 x).length_le
  rw [backlog, feed_append]
  rw [List.length_append] at hsuffix
  exact hsuffix

/-- Each piece finds room behind what the parser has left. -/
def Room : List Byte → List (List Byte) → Prop
  | _, [] => True
  | seen, x :: xs => backlog seen + x.length ≤ kMaxBufferedOutput ∧ Room (seen ++ x) xs

/-- Where the records of a stream begin. -/
def metadataEnd (m : Metadata) : ℕ := dbnHeaderSize + m.body.length

/-- A well-formed stream is parsed without error. -/
theorem feed_bytes (s : DbnStream) : ∃ phase, feed metadataPreamble recordFramer .start s.bytes =
    (s.records.map Record.bytes, ⟨phase, s.tail, none⟩) ∧
      (phase = some s.version ∨ s.records = []) := by
  obtain ⟨phase, hfeed, hphase⟩ := feed_stream s.metadata s.records s.tail (Or.inr s.version_le) s.unmarked
  obtain ⟨part, hpart, hne⟩ := s.tail_part
  have hdrain : drain (recordFramer (versionOf s.metadata)) s.tail = ⟨[], s.tail, none⟩ :=
    drain_more _ (lookRecord_part part hpart hne _)
  rw [hdrain, List.append_nil] at hfeed
  exact ⟨phase, hfeed, hphase.imp_right fun h => h.1⟩

variable {s : DbnStream} {m : Metadata} {seen : List Byte}

theorem bytes_of_metadata (hm : s.metadata = some m) :
    s.bytes = m.bytes ++ (s.records.flatMap Record.bytes ++ s.tail) := by
  rw [DbnStream.bytes, hm]
  rfl

theorem error_of_prefix (hpre : seen <+: s.bytes) :
    (feed metadataPreamble recordFramer .start seen).2.error = none := by
  obtain ⟨rest, hrest⟩ := hpre
  obtain ⟨phase, hfeed, -⟩ := feed_bytes s
  refine error_of_feed_append _ _ (y := rest) ?_
  rw [hrest, hfeed]

/-- **Until the metadata is complete all of it stays in the chain.** -/
theorem backlog_waiting (hm : s.metadata = some m) (hpre : seen <+: s.bytes) (hlt : seen.length < metadataEnd m) :
    backlog seen = seen.length := by
  have hmore : metadataPreamble.look ([] ++ seen) = .more := by
    show lookMetadata seen = .more
    by_contra hne
    obtain ⟨rest, hrest⟩ := hpre
    have hitem : lookMetadata (seen ++ rest) = .item m.version m.bytes.length := by
      rw [hrest, bytes_of_metadata hm]
      exact lookMetadata_bytes m _
    rw [lookMetadata_stable.append hne] at hitem
    have hfits := metadataPreamble.fits hitem
    rw [length_metadata] at hfits
    rw [metadataEnd] at hlt
    omega
  rw [backlog, feed]
  simp only [Progress.start, hmore]
  rfl

/-- Behind the metadata the records are parsed. -/
theorem feed_metadata (m : Metadata) (y : List Byte) :
    feed metadataPreamble recordFramer .start (m.bytes ++ y) = enter recordFramer m.version y := by
  have hlook : metadataPreamble.look ([] ++ (m.bytes ++ y)) = .item m.version m.bytes.length :=
    lookMetadata_bytes m y
  simp only [feed, Progress.start, hlook]
  rw [List.nil_append, List.drop_left]

/-- **Behind the metadata less than a record stays.** -/
theorem backlog_records (hm : s.metadata = some m) (hpre : seen <+: s.bytes) (hle : metadataEnd m ≤ seen.length) :
    backlog seen ≤ 1020 := by
  obtain ⟨y, rfl⟩ : ∃ y, seen = m.bytes ++ y := by
    have hm' : m.bytes <+: s.bytes := by
      rw [bytes_of_metadata hm]
      exact List.prefix_append _ _
    obtain ⟨y, hy⟩ := List.prefix_of_prefix_length_le hm' hpre (by rw [length_metadata]; exact hle)
    exact ⟨y, hy.symm⟩
  have herror := error_of_prefix hpre
  rw [feed_metadata] at herror
  have hmore : lookRecord m.version (drain (recordFramer m.version) y).rest = .more := look_rest _ herror
  have hbuffer : backlog (m.bytes ++ y) = (drain (recordFramer m.version) y).rest.length := by
    rw [backlog, feed_metadata]
    rfl
  have hstated := statedSize_le (drain (recordFramer m.version) y).rest
  rw [hbuffer]
  generalize (drain (recordFramer m.version) y).rest = rest at hmore hstated
  simp only [lookRecord] at hmore
  by_contra hgt
  rw [if_neg (by rw [headerSize]; omega)] at hmore
  split at hmore
  · cases hmore
  split at hmore
  · cases hmore
  rw [if_neg (by omega)] at hmore
  split at hmore <;> cases hmore

/-- **Where the room suffices**: only the pieces up to the one that completes the metadata matter. -/
theorem room_iff (hm : s.metadata = some m) {pieces : List (List Byte)} (hpre : seen ++ pieces.flatten <+: s.bytes)
    (hle : ∀ x ∈ pieces, x.length ≤ Segment.kSize) (hall : metadataEnd m ≤ seen.length + pieces.flatten.length) :
    Room seen pieces ↔ ∀ k, seen.length + ((pieces.take k).map List.length).sum < metadataEnd m →
      seen.length + ((pieces.take (k + 1)).map List.length).sum ≤ kMaxBufferedOutput := by
  induction pieces generalizing seen with
  | nil =>
    refine iff_of_true trivial fun k hk => ?_
    rw [List.flatten_nil, List.length_nil] at hall
    rw [List.take_nil, List.map_nil, List.sum_nil] at hk
    omega
  | cons x xs ih =>
    have hx := hle x List.mem_cons_self
    have hpre' : seen ++ x ++ xs.flatten <+: s.bytes := by
      rw [List.append_assoc, ← List.flatten_cons]
      exact hpre
    have hseen : seen <+: s.bytes := ((List.prefix_append seen _).trans hpre)
    have hrec := ih hpre' (fun y hy => hle y (List.mem_cons_of_mem x hy)) (by
      rw [List.flatten_cons, List.length_append] at hall
      rw [List.length_append]
      omega)
    rw [Room, hrec, List.length_append]
    by_cases hlt : seen.length < metadataEnd m
    · rw [backlog_waiting hm hseen hlt]
      constructor
      · rintro ⟨h0, hrest⟩ k hk
        cases k with
        | zero => simpa using h0
        | succ k =>
          simp only [List.take_succ_cons, List.map_cons, List.sum_cons, ← Nat.add_assoc] at hk ⊢
          exact hrest k hk
      · intro h
        refine ⟨by simpa using h 0 (by simpa using hlt), fun k hk => ?_⟩
        have hk' := h (k + 1)
        simp only [List.take_succ_cons, List.map_cons, List.sum_cons, ← Nat.add_assoc] at hk'
        exact hk' hk
    · have hback := backlog_records hm hseen (by omega)
      refine iff_of_true ⟨?_, fun k hk => absurd hk (by omega)⟩ fun k hk => absurd hk (by omega)
      rw [Segment.kSize] at hx
      rw [kMaxBufferedOutput]
      omega

/-! ### The component -/

variable (D : Databento) {Z : ZstdDecoder}

/-- The stream has come in up to `seen`, the decoder is in state `state`, and nothing has gone wrong; the sink
suspends nobody. -/
structure Feeding (seen : List Byte) (state : Z.State) (c : Component (ZstdDecompressor Z ParserStage)) : Prop where
  opened : c.closed = false
  unfinished : c.finalized = false
  running : c.suspendCount = 0
  silent : c.signals = []
  idle : c.own.pendingInput.empty = true
  dstream : c.own.dstream = some state
  heard : c.own.next.heard = 0
  quiet : ∀ t ∈ c.own.next.turns, t.suspends = 0
  within : backlog seen ≤ kMaxBufferedOutput
  parser : ∃ items p, feed metadataPreamble recordFramer .start seen = (items, p) ∧ p.error = none ∧
    Tracks c.own.next.parser c.own.outputChain p ∧ Sent D c.own.next.parser items

/-- The error of an exceeded output limit. -/
def outputOverflow : Error := { code := .bufferOverflow, message := "Decompressed output buffer overflow" }

/-- The stream has been given up for want of room. -/
def Overflowed (c : Component (ZstdDecompressor Z ParserStage)) : Prop :=
  c.closed = true ∧ .error outputOverflow ∈ c.signals

variable {D} {c d : Component (ZstdDecompressor Z ParserStage)} {state : Z.State}

/-- The members that do not matter. -/
theorem Feeding.of_eq (h : Feeding D seen state c) (hclosed : d.closed = c.closed)
    (hfinalized : d.finalized = c.finalized) (hcount : d.suspendCount = c.suspendCount)
    (hsignals : d.signals = c.signals) (hpending : d.own.pendingInput = c.own.pendingInput)
    (hdstream : d.own.dstream = c.own.dstream) (hnext : d.own.next = c.own.next)
    (hchain : d.own.outputChain = c.own.outputChain) : Feeding D seen state d := by
  obtain ⟨h1, h2, h3, h4, h5, h6, h7, h8, h9, h10⟩ := h
  refine ⟨hclosed.trans h1, hfinalized.trans h2, hcount.trans h3, hsignals.trans h4, ?_, hdstream.trans h6, ?_, ?_,
    h9, ?_⟩
  · rw [hpending]; exact h5
  · rw [hnext]; exact h7
  · rw [hnext]; exact h8
  · rw [hnext, hchain]; exact h10

theorem Feeding.not_suspended (h : Feeding D seen state c) : c.suspended = false :=
  (Component.not_suspended_iff c).mpr h.running

/-- The chain holds the backlog. -/
theorem Feeding.size (h : Feeding D seen state c) : c.own.outputChain.size = backlog seen := by
  obtain ⟨items, p, hfeed, -, htracks, -⟩ := h.parser
  rw [Chain.size_eq htracks.wf, htracks.buffer, backlog, hfeed]

/-- The chain is replaced by one of the same bytes. -/
theorem tracks_of_bytes {parser : Component Parser} {chain chain' : Chain} {p : Progress Byte Byte String}
    (h : Tracks parser chain p) (hwf : Chain.WF chain') (hbytes : Chain.bytes chain' = Chain.bytes chain) :
    Tracks parser chain' p :=
  ⟨hwf, hbytes.trans h.buffer, h.finalized, h.phase, h.version⟩

/-- **A piece is handed to the parser**, which takes what it can use. -/
theorem feeding_answer {piece : List Byte} (h : Feeding D seen state c) (hwf : Chain.WF d.own.outputChain)
    (hbytes : Chain.bytes d.own.outputChain = Chain.bytes c.own.outputChain ++ piece)
    (hclosed : d.closed = c.closed) (hfinalized : d.finalized = c.finalized)
    (hcount : d.suspendCount = c.suspendCount) (hsignals : d.signals = c.signals)
    (hpending : d.own.pendingInput = c.own.pendingInput) (hnext : d.own.next = c.own.next) {state' : Z.State}
    (hdstream : d.own.dstream = some state') (hroom : backlog seen + piece.length ≤ kMaxBufferedOutput)
    (hgood : (feed metadataPreamble recordFramer .start (seen ++ piece)).2.error = none) :
    Feeding D (seen ++ piece) state' (answer (toParser D) d) := by
  obtain ⟨h1, h2, h3, h4, h5, -, h7, h8, -, items, p, hfeed, herror, htracks, hsent⟩ := h
  have hturn : (d.own.next.turns.headD {}).suspends = 0 := by
    rw [hnext]
    cases hturns : c.own.next.turns with
    | nil => rfl
    | cons t turns => exact h8 t (by rw [hturns]; exact List.mem_cons_self)
  have hhear : d.own.next.hear d.signals = d.own.next := by
    rw [hsignals, h4, hnext]
    exact hear_nil h7
  have hbytes' : Chain.bytes d.own.outputChain = p.buffer ++ piece := by rw [hbytes, htracks.buffer]
  obtain ⟨rest, hout, -, hdrop, hok, -⟩ := take_spec (D := D) (t := d.own.next)
    ⟨c.own.outputChain, by rw [hnext]; exact htracks⟩ hwf hbytes'
  have hall := feed_append metadataPreamble recordFramer .start seen piece
  rw [hfeed] at hall
  have hgood' : (feed metadataPreamble recordFramer p piece).2.error = none := by
    rw [hall] at hgood
    exact hgood
  have hD : toParser D d =
      { consume := (d.own.next.take D d.own.outputChain).consumed
        suspends := 0
        state := (d.own.next.take D d.own.outputChain).stage } := by
    simp only [toParser, hhear]
    rw [show (d.own.next.take D d.own.outputChain).suspends = 0 from hturn]
  rw [answer, hD]
  refine ⟨hclosed.trans h1, hfinalized.trans h2, hcount.trans h3, hsignals.trans h4, ?_, hdstream, ?_, ?_,
    Nat.le_trans (backlog_append_le seen piece) hroom, ?_⟩
  · show d.own.pendingInput.empty = true
    rw [hpending]
    exact h5
  · show d.own.next.heard = 0
    rw [hnext]
    exact h7
  · intro t ht
    refine h8 t (List.mem_of_mem_tail ?_)
    rw [← hnext]
    exact ht
  · refine ⟨_, _, hall, hgood', tracks_of_bytes hout (Chain.wf_consumed hwf _) ?_, hok hgood' items ?_⟩
    · rw [← hdrop]
      exact Chain.bytes_consumed_min hwf _
    · rw [hnext]
      exact hsent

/-! ### The loops -/

theorem room_append (seen : List Byte) (xs ys : List (List Byte)) :
    Room seen (xs ++ ys) ↔ Room seen xs ∧ Room (seen ++ xs.flatten) ys := by
  induction xs generalizing seen with
  | nil => simp [Room]
  | cons x xs ih => simp only [List.cons_append, Room, ih, List.flatten_cons, List.append_assoc, and_assoc]

/-- An exceeded limit gives the stream up. -/
theorem Feeding.overflow (h : Feeding D seen state c) : Overflowed (fail .bufferOverflow
    "Decompressed output buffer overflow" c) := by
  have he := Component.ended_error h.opened h.unfinished outputOverflow
  refine ⟨he.closed, ?_⟩
  show .error outputOverflow ∈ (c.emitError outputOverflow).requestClose.signals
  rw [he.signals]
  exact List.mem_append_right _ List.mem_cons_self

theorem answer_input (next : Downstream Z ParserStage) (c : Component (ZstdDecompressor Z ParserStage)) :
    (answer next c).own.input = c.own.input := by
  obtain ⟨upstream, heq⟩ := suspendTimes_eq (next c).suspends
    (consume (next c).consume (update (fun h => { h with next := (next c).state }) c))
  rw [answer]
  simp only [heq]
  rfl

/-- **The loop over a chunk.** -/
theorem chunkLoop_room {chunk : List Byte} {fuel pos : ℕ} {state' : Z.State} {pieces : List (List Byte)}
    (hdec : decodeChunk Z chunk fuel pos state = some (state', pieces)) (h : Feeding D seen state c)
    (hgood : (feed metadataPreamble recordFramer .start (seen ++ pieces.flatten)).2.error = none) :
    let r := chunkLoop (answer (toParser D)) chunk fuel pos c
    (Room seen pieces ∧ r.2.2 = .complete ∧ Feeding D (seen ++ pieces.flatten) state' r.1 ∨
      ¬Room seen pieces ∧ r.2.2 = .error ∧ Overflowed r.1) ∧ r.1.own.input = c.own.input := by
  induction fuel generalizing pos seen state c pieces with
  | zero =>
    simp only [decodeChunk, Option.some.injEq, Prod.mk.injEq] at hdec
    obtain ⟨rfl, rfl⟩ := hdec
    refine ⟨Or.inl ⟨trivial, rfl, ?_⟩, rfl⟩
    rw [List.flatten_nil, List.append_nil]
    exact h
  | succ fuel ih =>
    intro r
    by_cases hpos : chunk.length ≤ pos
    · rw [decodeChunk_end hpos] at hdec
      simp only [Option.some.injEq, Prod.mk.injEq] at hdec
      obtain ⟨rfl, rfl⟩ := hdec
      have hr : r = (c, pos, .complete) := by
        show chunkLoop (answer (toParser D)) chunk (fuel + 1) pos c = _
        rw [chunkLoop, if_pos hpos]
      rw [hr, List.flatten_nil, List.append_nil]
      exact ⟨Or.inl ⟨trivial, rfl, h⟩, rfl⟩
    obtain ⟨t, rest, ht, hrest, rfl⟩ := decodeChunk_succ hpos hdec
    have hr : r = chunkLoop (answer (toParser D)) chunk (fuel + 1) pos c := rfl
    have hnext : Feeding D seen t.state (absorb t (recordCall c)) :=
      ⟨h.opened, h.unfinished, h.running, h.silent, h.idle, rfl, h.heard, h.quiet, h.within, h.parser⟩
    rw [chunkLoop, if_neg hpos, h.dstream] at hr
    simp only [ht] at hr
    by_cases hnone : t.produced.length = 0
    · rw [if_pos hnone] at hr hgood ⊢
      obtain ⟨hend, hinput⟩ := ih hrest hnext hgood
      rw [hr]
      exact ⟨hend, hinput⟩
    rw [if_neg hnone] at hr hgood ⊢
    rw [hnext.size, sizeSub_of_le h.within] at hr
    by_cases hroom : backlog seen + t.produced.length ≤ kMaxBufferedOutput
    · -- the piece goes to the chain, and the chain to the parser
      rw [if_neg (by omega)] at hr
      rw [List.flatten_cons, ← List.append_assoc] at hgood
      have hwf : Chain.WF (absorb t (recordCall c)).own.outputChain := by
        obtain ⟨_, _, _, _, htracks, _⟩ := hnext.parser
        exact htracks.wf
      have happend := Chain.bytes_appended hwf (Segment.blank.fill t.produced t.produced_le)
      have hfull : (appendOutput t (absorb t (recordCall c))).own.outputChain.empty = false := by
        refine (Chain.not_empty_iff (Chain.wf_appended hwf _)).mpr fun hnil => ?_
        rw [happend] at hnil
        exact hnone (List.length_eq_zero_iff.mpr (List.append_eq_nil_iff.mp hnil).2)
      have hanswer := feeding_answer (d := appendOutput t (absorb t (recordCall c))) hnext
        (Chain.wf_appended hwf _) happend rfl rfl rfl rfl rfl rfl rfl hroom (error_of_feed_append _ _ hgood)
      simp only [Component.forwardData, hfull, hanswer.not_suspended, Bool.false_eq_true, if_false] at hr
      obtain ⟨hend, hinput⟩ := ih hrest hanswer hgood
      rw [hr, Room, List.flatten_cons, ← List.append_assoc]
      refine ⟨?_, hinput.trans (answer_input _ _)⟩
      rcases hend with ⟨h1, h2, h3⟩ | ⟨h1, h2, h3⟩
      · exact Or.inl ⟨⟨hroom, h1⟩, h2, h3⟩
      · exact Or.inr ⟨fun hr => h1 hr.2, h2, h3⟩
    · rw [if_pos (by omega)] at hr
      rw [hr]
      refine ⟨Or.inr ⟨fun hr => hroom hr.1, rfl, hnext.overflow⟩, ?_⟩
      rw [fail_own]
      rfl

/-- The front segment of a fresh chain is consumed. -/
theorem consume_front {chain : Chain} {seg : Segment} {segs : List Segment} (hwf : Chain.WF chain)
    (hsegs : chain.segments = seg :: segs) (hoff : chain.consumedOffset = 0) :
    (chain.consume id seg.bytes.length).segments = segs ∧
      (chain.consume id seg.bytes.length).consumedOffset = 0 := by
  have hne : seg.bytes.length ≠ 0 := fun h0 =>
    hwf.nonempty seg (by rw [hsegs]; exact List.mem_cons_self) (List.length_eq_zero_iff.mp h0)
  have hstop : ∀ total, BufferChain.consumeLoop id segs 0 total 0 = (segs, 0, total, []) := by
    intro total
    cases segs with
    | nil => rfl
    | cons s ss => rw [BufferChain.consumeLoop, if_pos rfl]
  rw [BufferChain.consume, hsegs, hoff]
  simp only [BufferChain.consumeLoop, if_neg hne, id_eq, Segment.size, Nat.sub_zero, Nat.le_refl, if_true,
    Nat.sub_self, hstop, and_self]

/-- **The loop over the caller's chain**, which has not been touched before. -/
theorem chainLoop_room {fuel : ℕ} {state' : Z.State} {pieces : List (List Byte)}
    (hfuel : c.own.input.size ≤ fuel) (hwf : Chain.WF c.own.input) (hoff : c.own.input.consumedOffset = 0)
    (hdec : decodeChunks Z (c.own.input.segments.map Segment.bytes) state = some (state', pieces))
    (h : Feeding D seen state c)
    (hgood : (feed metadataPreamble recordFramer .start (seen ++ pieces.flatten)).2.error = none) :
    let r := chainLoop (answer (toParser D)) .input fuel c
    Room seen pieces ∧ r.2 = .complete ∧ Feeding D (seen ++ pieces.flatten) state' r.1 ∧ r.1.own.input.empty = true ∨
      ¬Room seen pieces ∧ r.2 = .error ∧ Overflowed r.1 := by
  induction fuel generalizing seen state c pieces with
  | zero =>
    intro r
    have hempty : c.own.input.empty = true := by
      rw [BufferChain.empty, beq_iff_eq]
      exact Nat.le_zero.mp hfuel
    have hnil := (BufferChain.bytes_eq_nil_iff id hwf).mp ((Chain.empty_iff hwf).mp hempty)
    rw [hnil] at hdec
    simp only [List.map_nil, decodeChunks, Option.some.injEq, Prod.mk.injEq] at hdec
    obtain ⟨rfl, rfl⟩ := hdec
    rw [List.flatten_nil, List.append_nil]
    exact Or.inl ⟨trivial, rfl, h, hempty⟩
  | succ fuel ih =>
    intro r
    have hr : r = chainLoop (answer (toParser D)) .input (fuel + 1) c := rfl
    rw [chainLoop] at hr
    cases hsegs : c.own.input.segments with
    | nil =>
      have hempty : c.own.input.empty = true :=
        (Chain.empty_iff hwf).mpr ((BufferChain.bytes_eq_nil_iff id hwf).mpr hsegs)
      rw [hsegs] at hdec
      simp only [List.map_nil, decodeChunks, Option.some.injEq, Prod.mk.injEq] at hdec
      obtain ⟨rfl, rfl⟩ := hdec
      rw [show (Source.input.get c.own).empty = true from hempty, if_pos rfl] at hr
      rw [hr, List.flatten_nil, List.append_nil]
      exact Or.inl ⟨trivial, rfl, h, hempty⟩
    | cons seg segs =>
      obtain ⟨hdata, hcont, hpos, hbytes⟩ := BufferChain.front_spec id hwf hsegs
      have hnonempty : (Source.input.get c.own).empty = false := by
        show c.own.input.empty = false
        rw [Chain.not_empty_iff hwf, ne_eq, BufferChain.bytes_eq_nil_iff id hwf, hsegs]
        simp
      have hdata' : (Source.input.get c.own).dataAt id 0 = some (seg, 0) := by
        rw [hoff] at hdata
        exact hdata
      have hsize : (Source.input.get c.own).contiguousSize id = seg.bytes.length := by
        rw [hoff, List.drop_zero] at hcont
        exact hcont
      rw [hsegs, List.map_cons] at hdec
      obtain ⟨mid, first, rest, hfirst, hrest, rfl⟩ := decodeChunks_cons hdec
      rw [List.flatten_append, ← List.append_assoc] at hgood ⊢
      have hchunk := chunkLoop_room hfirst h (error_of_feed_append _ _ hgood)
      have hfuel' : chunkFuel c.own seg.bytes = Z.rounds state seg.bytes + 1 := by
        rw [chunkFuel, h.dstream]
        rfl
      simp only [hnonempty, hdata', hsize, List.drop_zero, List.take_length, hfuel', Bool.false_eq_true,
        if_false] at hr
      obtain ⟨hend, hinput⟩ := hchunk
      rw [room_append]
      rcases hend with ⟨h1, h2, h3⟩ | ⟨h1, h2, h3⟩
      · simp only [h2] at hr
        generalize (chunkLoop (answer (toParser D)) seg.bytes (Z.rounds state seg.bytes + 1) 0 c).1 = d
          at hr h3 hinput
        have hnext : (consumeSource .input seg.bytes.length d).own.input = c.own.input.consume id seg.bytes.length := by
          show d.own.input.consume id seg.bytes.length = _
          rw [hinput]
        obtain ⟨hsegs', hoff'⟩ := consume_front hwf hsegs hoff
        have hwf' := Chain.wf_consumed hwf seg.bytes.length
        have hfuel'' : (consumeSource .input seg.bytes.length d).own.input.size ≤ fuel := by
          rw [hcont, hoff, List.drop_zero] at hpos
          rw [Chain.size_eq hwf] at hfuel
          rw [hnext, Chain.size_eq hwf', Chain.bytes_consumed hwf, List.length_drop]
          have hpos' : 0 < seg.bytes.length := hpos
          omega
        have hrec := ih hfuel'' (by rw [hnext]; exact hwf') (by rw [hnext]; exact hoff')
          (by rw [hnext, hsegs']; exact hrest)
          (h3.of_eq (d := consumeSource .input seg.bytes.length d) rfl rfl rfl rfl rfl rfl rfl rfl) hgood
        rw [← hr] at hrec
        rcases hrec with ⟨h4, h5⟩ | ⟨h4, h5⟩
        · exact Or.inl ⟨⟨h1, h4⟩, h5⟩
        · exact Or.inr ⟨fun hr => h4 hr.2, h5⟩
      · simp only [h2] at hr
        rw [hr]
        exact Or.inr ⟨fun hr => h1 hr.1, rfl, h3⟩

/-! ### Runs -/

/-- The chain of a call: its segments, but for the empty ones. -/
theorem appendAll_segments (chain : Chain) (segs : List Segment) :
    (segs.foldl (BufferChain.append id) chain).segments =
        chain.segments ++ segs.filter (fun seg => decide (0 < seg.size)) ∧
      (segs.foldl (BufferChain.append id) chain).consumedOffset = chain.consumedOffset := by
  induction segs generalizing chain with
  | nil => exact ⟨(List.append_nil _).symm, rfl⟩
  | cons seg segs ih =>
    obtain ⟨h1, h2⟩ := ih (BufferChain.append id chain seg)
    rw [List.foldl_cons, h1, h2, BufferChain.append]
    by_cases hpos : 0 < seg.size
    · rw [if_pos (show 0 < (id seg).size from hpos), List.filter_cons_of_pos (by simpa using hpos)]
      simp only [List.append_assoc, List.singleton_append, and_self]
    · rw [if_neg (show ¬0 < (id seg).size from hpos), List.filter_cons_of_neg (by simpa using hpos)]
      exact ⟨rfl, rfl⟩

/-- The empty segments write nothing. -/
theorem decodeChunks_filter (segs : List Segment) (state : Z.State) :
    decodeChunks Z ((segs.filter fun seg => decide (0 < seg.size)).map Segment.bytes) state =
      decodeChunks Z (segs.map Segment.bytes) state := by
  induction segs generalizing state with
  | nil => rfl
  | cons seg segs ih =>
    by_cases hpos : 0 < seg.size
    · rw [List.filter_cons_of_pos (by simpa using hpos), List.map_cons, List.map_cons, decodeChunks, decodeChunks]
      simp only [ih]
    · have hnil : seg.bytes = [] := List.length_eq_zero_iff.mp (by rw [Segment.size] at hpos; omega)
      rw [List.filter_cons_of_neg (by simpa using hpos), ih, List.map_cons, hnil, decodeChunks,
        decodeChunk_end (Nat.zero_le _)]
      simp only [List.nil_append]
      cases decodeChunks Z (segs.map Segment.bytes) state with
      | none => rfl
      | some r => rfl

theorem Overflowed.leave (h : Overflowed c) : Overflowed c.leave := by
  rw [Overflowed, Component.leave_closed, Component.leave_signals]
  exact h

theorem Feeding.leave (h : Feeding D seen state c) : Feeding D seen state c.leave :=
  h.of_eq c.leave_closed c.leave_finalized c.leave_suspendCount c.leave_signals (by rw [c.leave_own])
    (by rw [c.leave_own]) (by rw [c.leave_own]) (by rw [c.leave_own])

/-- A call of `OnData` on which nothing is pending. -/
theorem dataBody_running (h : Feeding D seen state c) :
    let r := chainLoop (answer (toParser D)) .input c.own.input.size c
    dataBody (answer (toParser D)) c =
      if r.2 = .error then r.1
      else if !r.1.own.input.empty then copyToPendingInput r.1.own.input.size r.1
      else r.1 := by
  have hdecompress : decompressChain (answer (toParser D)) .input c =
      chainLoop (answer (toParser D)) .input c.own.input.size c := by
    rw [decompressChain, h.dstream, h.not_suspended]
    rfl
  rw [dataBody, h.idle]
  simp only [Bool.not_true, Bool.false_eq_true, if_false, hdecompress]

/-- **One call of `OnData`.** -/
theorem step_room {segs : List Segment} {state' : Z.State} {pieces : List (List Byte)}
    (hdec : decodeChunks Z (segs.map Segment.bytes) state = some (state', pieces)) (h : Feeding D seen state c)
    (hgood : (feed metadataPreamble recordFramer .start (seen ++ pieces.flatten)).2.error = none) :
    Room seen pieces ∧ Feeding D (seen ++ pieces.flatten) state' (step (answer (toParser D)) c (.data segs)) ∨
      ¬Room seen pieces ∧ Overflowed (step (answer (toParser D)) c (.data segs)) := by
  obtain ⟨hsegs, hoff⟩ := appendAll_segments {} segs
  obtain ⟨hwf, -⟩ := Chain.appendAll_spec (Chain.wf_empty none) segs
  have hin : Feeding D seen state (receive (segs.foldl (BufferChain.append id) {}) c.enter) :=
    h.of_eq rfl rfl rfl rfl rfl rfl rfl rfl
  have hdec' : decodeChunks Z ((segs.foldl (BufferChain.append id) {}).segments.map Segment.bytes) state =
      some (state', pieces) := by
    rw [hsegs, List.nil_append, decodeChunks_filter]
    exact hdec
  have hbody := dataBody_running hin
  have hloop := chainLoop_room (Nat.le_refl _) hwf hoff hdec' hin hgood
  rw [step, onData, Component.guarded, h.opened]
  simp only [Bool.false_eq_true, if_false]
  rw [hbody]
  rcases hloop with ⟨hroom, hcomplete, hfeeding, hempty⟩ | ⟨hroom, herror, hover⟩
  · refine Or.inl ⟨hroom, Feeding.leave ?_⟩
    rw [hcomplete, hempty]
    exact hfeeding
  · refine Or.inr ⟨hroom, Overflowed.leave ?_⟩
    rw [if_pos herror]
    exact hover

/-- A stream that has been given up stays so. -/
theorem Overflowed.data (h : Overflowed c) (segs : List Segment) :
    step (answer (toParser D)) c (.data segs) = c := by
  rw [step, onData, Component.guarded, if_pos h.1]

theorem Overflowed.run (h : Overflowed c) (calls : List (List Segment)) :
    Overflowed (Runs.run (step (answer (toParser D))) c (calls.map .data)) := by
  induction calls with
  | nil => exact h
  | cons segs calls ih =>
    rw [List.map_cons, Runs.run_cons, h.data]
    exact ih

/-- **A run** goes on as long as each piece finds room. -/
theorem run_room {calls : List (List Segment)} {state' : Z.State} {pieces : List (List Byte)}
    (hdec : decodeChunks Z (calls.flatten.map Segment.bytes) state = some (state', pieces))
    (h : Feeding D seen state c)
    (hgood : (feed metadataPreamble recordFramer .start (seen ++ pieces.flatten)).2.error = none) :
    let e := Runs.run (step (answer (toParser D))) c (calls.map .data)
    Room seen pieces ∧ Feeding D (seen ++ pieces.flatten) state' e ∨ ¬Room seen pieces ∧ Overflowed e := by
  induction calls generalizing seen state c pieces with
  | nil =>
    simp only [List.flatten_nil, List.map_nil, decodeChunks, Option.some.injEq, Prod.mk.injEq] at hdec
    obtain ⟨rfl, rfl⟩ := hdec
    rw [List.flatten_nil, List.append_nil]
    exact Or.inl ⟨trivial, h⟩
  | cons segs calls ih =>
    rw [List.flatten_cons, List.map_append] at hdec
    obtain ⟨mid, first, rest, hfirst, hrest, rfl⟩ := decodeChunks_append hdec
    rw [List.flatten_append, ← List.append_assoc] at hgood ⊢
    rw [List.map_cons, Runs.run_cons, room_append]
    rcases step_room hfirst h (error_of_feed_append _ _ hgood) with ⟨hroom, hnext⟩ | ⟨hroom, hover⟩
    · rcases ih hrest hnext hgood with ⟨hroom', hend⟩ | ⟨hroom', hend⟩
      · exact Or.inl ⟨⟨hroom, hroom'⟩, hend⟩
      · exact Or.inr ⟨fun hr => hroom' hr.2, hend⟩
    · exact Or.inr ⟨fun hr => hroom hr.1, hover.run calls⟩

/-- A new component in front of a sink that suspends nobody. -/
theorem feeding_new (D : Databento) (Z : ZstdDecoder) {turns : List SinkTurn} (hquiet : ∀ t ∈ turns, t.suspends = 0) :
    Feeding D [] Z.start (newZstdDecompressor Z { turns := turns }) := by
  refine ⟨rfl, rfl, rfl, rfl, rfl, rfl, rfl, hquiet, Nat.zero_le _, [], .start, start_settled, rfl, ?_,
    newParser_sent D none⟩
  exact newParser_tracks none

/-! ### The records behind the metadata -/

/-- The records of `s` reach the sink, and the output limit is not reported. -/
def Forwarded (D : Databento) (s : DbnStream) (c : Component (ZstdDecompressor Z ParserStage)) : Prop :=
  .error outputOverflow ∉ c.signals ∧
    ∃ batches : List (List RecordRef), c.own.next.events c.signals = batches.map .data ∧
      List.Forall₂ (Delivers D s.version) (s.records.map Record.bytes) batches.flatten

/-- A component on which the whole stream has come in has handed its records on. -/
theorem Feeding.forwarded (h : Feeding D s.bytes state c) : Forwarded D s c := by
  obtain ⟨items, p, hfeed, -, htracks, ⟨batches, hevents, hall⟩, -⟩ := h.parser
  obtain ⟨phase, hbytes, hphase⟩ := feed_bytes s
  rw [hbytes, Prod.mk.injEq] at hfeed
  obtain ⟨rfl, rfl⟩ := hfeed
  have hsilent := h.silent
  refine ⟨by rw [hsilent]; exact List.not_mem_nil, batches, ?_, ?_⟩
  · rw [hsilent, ParserStage.events, hear_nil h.heard]
    exact hevents
  · rcases hphase with hphase | hnone
    · rw [version_of_phase htracks hphase] at hall
      exact hall
    · rw [hnone] at hall ⊢
      rw [List.map_nil] at hall ⊢
      rw [List.forall₂_nil_left_iff.mp hall]
      exact List.Forall₂.nil

theorem Overflowed.not_forwarded (h : Overflowed c) : ¬Forwarded D s c := fun hf => hf.1 h.2

/-- The records reach the sink exactly if each piece finds room. -/
theorem forwarded_iff_room (D : Databento) {turns : List SinkTurn} {calls : List (List Segment)} {state : Z.State}
    {pieces : List (List Byte)} (hquiet : ∀ t ∈ turns, t.suspends = 0)
    (hdec : decodeChunks Z (calls.flatten.map Segment.bytes) Z.start = some (state, pieces))
    (hstream : pieces.flatten = s.bytes) :
    Forwarded D s (Runs.run (step (answer (toParser D))) (newZstdDecompressor Z { turns := turns })
        (calls.map .data)) ↔ Room [] pieces := by
  have hgood : (feed metadataPreamble recordFramer .start ([] ++ pieces.flatten)).2.error = none :=
    error_of_prefix (s := s) (hstream ▸ List.prefix_rfl)
  rcases run_room hdec (feeding_new D Z hquiet) hgood with ⟨hr, hend⟩ | ⟨hr, hend⟩
  · rw [List.nil_append, hstream] at hend
    exact iff_of_true hend.forwarded hr
  · exact iff_of_false hend.not_forwarded hr

/-- Only the pieces that begin within the metadata matter. -/
theorem room_stream (hm : s.metadata = some m) {pieces : List (List Byte)}
    (hle : ∀ x ∈ pieces, x.length ≤ Segment.kSize) (hstream : pieces.flatten = s.bytes) :
    Room [] pieces ↔ ∀ k, ((pieces.take k).map List.length).sum < metadataEnd m →
      ((pieces.take (k + 1)).map List.length).sum ≤ kMaxBufferedOutput := by
  have hlen := congrArg List.length (bytes_of_metadata hm)
  rw [List.length_append, length_metadata] at hlen
  have hpre : [] ++ pieces.flatten <+: s.bytes := hstream ▸ List.prefix_rfl
  have h := room_iff hm hpre hle (by rw [hstream, hlen, metadataEnd]; omega)
  simpa only [List.length_nil, Nat.zero_add] using h

/-- **The metadata must fit in front of the output limit, its last piece included.**  `ZstdDecompressor` in front
of the parser, any decoder, any calls of `OnData`, a sink that suspends nobody: the records behind the metadata
reach the sink exactly if the pieces that begin within the metadata block end within `kMaxBufferedOutput`. -/
theorem forwarded_iff (D : Databento) (Z : ZstdDecoder) (turns : List SinkTurn) (calls : List (List Segment))
    (s : DbnStream) (m : Metadata) (state : Z.State) (pieces : List (List Byte))
    (hquiet : ∀ t ∈ turns, t.suspends = 0) (hm : s.metadata = some m)
    (hdec : decodeChunks Z (calls.flatten.map Segment.bytes) Z.start = some (state, pieces))
    (hstream : pieces.flatten = s.bytes) :
    Forwarded D s (Runs.run (step (answer (toParser D))) (newZstdDecompressor Z { turns := turns })
        (calls.map .data)) ↔
      ∀ k, ((pieces.take k).map List.length).sum < metadataEnd m →
        ((pieces.take (k + 1)).map List.length).sum ≤ kMaxBufferedOutput :=
  (forwarded_iff_room D hquiet hdec hstream).trans (room_stream hm (length_decodeChunks hdec) hstream)

/-! ### Metadata of zeros -/

/-- A metadata block of `n` blocks of `size` zeros. -/
def zeroMetadata (n size : ℕ) (h : n * size ≤ kMaxMetadataSize) : Metadata :=
  ⟨1, List.replicate (n * size) 0, by rw [List.length_replicate]; exact h⟩

theorem statedSize_short : statedSize ([4] ++ List.replicate 15 0) = ([4] ++ List.replicate 15 0).length := by decide

theorem headerSize_le_short : headerSize ≤ ([4] ++ List.replicate 15 0 : List Byte).length := by decide

theorem short_le_max : ([4] ++ List.replicate 15 0 : List Byte).length ≤ kMaxRecordSize := by decide

/-- A record of 16 bytes. -/
def shortRecord : Record := ⟨[4] ++ List.replicate 15 0, statedSize_short, headerSize_le_short, short_le_max⟩

/-- Nothing is a part of it. -/
theorem nil_part : ∃ r : Record, [] <+: r.bytes ∧ [] ≠ r.bytes := ⟨shortRecord, List.nil_prefix, by decide⟩

/-- Behind it one record. -/
def zeroStream (n size : ℕ) (h : n * size ≤ kMaxMetadataSize) : DbnStream where
  metadata := some (zeroMetadata n size h)
  supported := by
    rintro m ⟨⟩
    exact ⟨UInt8.le_refl 1, show (1 : Byte) ≤ 3 by decide⟩
  records := [shortRecord]
  tail := []
  tail_part := nil_part
  unmarked := by simp

/-- It comes as the header, the blocks and the record. -/
def zeroPieces (n size : ℕ) : List (List Byte) :=
  (magic ++ 1 :: le32 (n * size)) :: (List.replicate n (List.replicate size 0) ++ [shortRecord.bytes])

/-- The frame: a byte for each piece. -/
def zeroFrame (n : ℕ) (h : n + 2 ≤ Segment.kSize) : Segment :=
  Segment.blank.fill (List.replicate (n + 2) 0) (by rw [List.length_replicate]; exact h)

theorem flatten_zeroPieces {n size : ℕ} (h : n * size ≤ kMaxMetadataSize) :
    (zeroPieces n size).flatten = (zeroStream n size h).bytes := by
  have hlen : (zeroMetadata n size h).body.length = n * size := List.length_replicate
  rw [DbnStream.bytes, zeroStream, preamble, Option.map_some, Option.getD_some, Metadata.bytes, hlen, zeroPieces,
    List.flatten_cons, List.flatten_append, List.flatten_replicate_replicate]
  simp only [zeroMetadata, List.flatMap_cons, List.flatMap_nil, List.flatten_cons, List.flatten_nil, List.append_nil,
    List.append_assoc, List.cons_append]

theorem decode_zeroPieces {n size : ℕ} (hn : n + 2 ≤ Segment.kSize) (h0 : 0 < size) (hsize : size ≤ Segment.kSize) :
    decodeChunks (piecewise (zeroPieces n size)) ([[zeroFrame n hn]].flatten.map Segment.bytes)
      (piecewise (zeroPieces n size)).start = some (n + 2, zeroPieces n size) := by
  have hlength : ∀ p ∈ zeroPieces n size, 0 < p.length ∧ p.length ≤ Segment.kSize := by
    intro p hp
    rcases List.mem_cons.mp hp with rfl | hp
    · exact ⟨Nat.succ_pos _, show 8 ≤ Segment.kSize by decide⟩
    rcases List.mem_append.mp hp with hp | hp
    · rw [List.eq_of_mem_replicate hp, List.length_replicate]
      exact ⟨h0, hsize⟩
    · rw [List.mem_singleton.mp hp]
      exact ⟨by decide, by decide⟩
  have hframe : (zeroFrame n hn).bytes.length = n + 2 := List.length_replicate
  have hall : (zeroFrame n hn).bytes.length = (zeroPieces n size).length := by
    rw [hframe, zeroPieces, List.length_cons, List.length_append, List.length_replicate, List.length_singleton]
  have h := decodeChunks_piecewise (fun p hp => List.ne_nil_of_length_pos (hlength p hp).1)
    (fun p hp => (hlength p hp).2) hall
  rw [hframe] at h
  exact h

/-- The sizes up to the `k`-th block. -/
theorem sum_zeroPieces {n size k : ℕ} (hk : k ≤ n) :
    (((zeroPieces n size).take (k + 1)).map List.length).sum = dbnHeaderSize + k * size := by
  rw [zeroPieces, List.take_succ_cons, List.take_append_of_le_length (by rw [List.length_replicate]; exact hk),
    List.take_replicate, Nat.min_eq_left hk, List.map_cons, List.map_replicate, List.sum_cons, List.length_replicate,
    List.sum_replicate_nat]
  rfl

/-- Where the record reaches the sink, the whole metadata block with its header has fitted. -/
theorem metadata_le_of_forwarded (D : Databento) {n size : ℕ} (h : (n + 1) * size ≤ kMaxMetadataSize)
    (hn : n + 1 + 2 ≤ Segment.kSize) (h0 : 0 < size) (hsize : size ≤ Segment.kSize)
    (hf : Forwarded D (zeroStream (n + 1) size h) (Runs.run (step (answer (toParser D)))
      (newZstdDecompressor (piecewise (zeroPieces (n + 1) size)) {}) ([[zeroFrame (n + 1) hn]].map .data))) :
    dbnHeaderSize + (n + 1) * size ≤ kMaxBufferedOutput := by
  have hdec := decode_zeroPieces hn h0 hsize
  have hstream := flatten_zeroPieces h
  have hroom := (forwarded_iff_room D (fun _ ht => absurd ht List.not_mem_nil) hdec hstream).mp hf
  have hlast := (room_stream rfl (length_decodeChunks hdec) hstream).mp hroom (n + 1)
  rw [sum_zeroPieces (Nat.le_succ n), sum_zeroPieces (Nat.le_refl _)] at hlast
  refine hlast ?_
  have hbody : (zeroMetadata (n + 1) size h).body.length = (n + 1) * size := List.length_replicate
  rw [metadataEnd, hbody, Nat.succ_mul]
  omega

/-- **A metadata block of 256MB does not fit** behind its header, though the parser accepts it. -/
theorem not_forwarded_largest :
    (zeroMetadata 4096 65536 (by decide)).body.length = kMaxMetadataSize ∧
      ¬Forwarded databentoCpp (zeroStream 4096 65536 (by decide))
        (Runs.run (step (answer (toParser databentoCpp)))
          (newZstdDecompressor (piecewise (zeroPieces 4096 65536)) {})
          ([[zeroFrame 4096 (by decide)]].map .data)) := by
  refine ⟨List.length_replicate, fun hf => ?_⟩
  have hle := metadata_le_of_forwarded databentoCpp (n := 4095) (by decide) (by decide) (by decide) (by decide) hf
  exact absurd hle (by decide)

/-- A block of 16 bytes fits. -/
theorem forwarded_iff_small :
    Forwarded databentoCpp (zeroStream 1 16 (by decide))
      (Runs.run (step (answer (toParser databentoCpp))) (newZstdDecompressor (piecewise (zeroPieces 1 16)) {})
        ([[zeroFrame 1 (by decide)]].map .data)) := by
  refine (forwarded_iff databentoCpp (piecewise (zeroPieces 1 16)) [] [[zeroFrame 1 (by decide)]]
    (zeroStream 1 16 (by decide)) (zeroMetadata 1 16 (by decide)) _ _ (fun _ ht => absurd ht List.not_mem_nil) rfl
    (decode_zeroPieces (by decide) (by decide) (by decide)) (flatten_zeroPieces (by decide))).mpr fun k _ => ?_
  match k with
  | 0 => decide
  | 1 => decide
  | k + 2 =>
    rw [List.take_of_length_le (show (zeroPieces 1 16).length ≤ k + 2 + 1 by exact Nat.le_add_left 3 k)]
    decide

end DbnPipe.Zstd
