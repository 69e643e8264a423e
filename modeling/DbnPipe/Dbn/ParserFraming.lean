import DbnPipe.Dbn.Parser
import DbnPipe.Library.Framing
import DbnPipe.Library.Runs
import Mathlib.Data.List.Forall2

/-!
# The parser is an incremental framing parser

What `DbnParserComponent` computes on chains, said on byte lists: metadata is a preamble and records are
items in the sense of `Framer`.

* `metadataPreamble`, `recordFramer` — the two recognisers;
* `Delivers v rec ref` — the reference given to the sink for the record `rec`: its bytes, or their
  conversion as read from memory that begins with them;
* `parseFront_spec` — **the four read paths agree**: one round is one look at the byte list;
* `onData_spec` — one call is one `feed`, with the batch lost where the call ends in an error.
-/

namespace DbnPipe.Dbn

open Layout Framing Chain

/-! ### The recognisers -/

/-- The record size that the first byte states. -/
def statedSize (buf : List Byte) : ℕ := 4 * (buf.headD 0).toNat

/-- What the front of the buffer is to the record loop. -/
def lookRecord (version : Byte) (buf : List Byte) : Look (List Byte) String :=
  if buf.length < headerSize then .more
  else if statedSize buf < headerSize then .bad "Invalid record size: smaller than header"
  else if kMaxRecordSize < statedSize buf then
    .bad ("Invalid record size: exceeds maximum (" ++ toString (statedSize buf) ++ " > " ++
      toString kMaxRecordSize ++ ")")
  else if buf.length < statedSize buf then .more
  else if 3 < version then
    .bad ("Unsupported DBN version " ++ toString version.toNat ++ " (max supported: 3)")
  else .item (buf.take (statedSize buf)) (statedSize buf)

/-- What the front of the buffer is to `SkipMetadataIfNeeded`: the version to go on with. -/
def lookMetadata (buf : List Byte) : Look Byte String :=
  if buf.length < dbnHeaderSize then .more
  else if buf.take 3 ≠ magic then .item 3 0
  else if kMaxMetadataSize < frameSize buf then
    .bad ("Invalid DBN metadata frame size: " ++ toString (frameSize buf))
  else if buf.length < dbnHeaderSize + frameSize buf then .more
  else .item (buf.getD 3 0) (dbnHeaderSize + frameSize buf)

theorem statedSize_append {buf : List Byte} (h : headerSize ≤ buf.length) (x : List Byte) :
    statedSize (buf ++ x) = statedSize buf := by
  cases buf with
  | nil => simp [headerSize] at h
  | cons b bs => rfl

theorem statedSize_take {buf : List Byte} {n : ℕ} (h : 0 < n) :
    statedSize (buf.take n) = statedSize buf := by
  cases buf with
  | nil => simp
  | cons b bs =>
    cases n with
    | zero => omega
    | succ n => rfl

theorem statedSize_le (buf : List Byte) : statedSize buf ≤ 1020 := by
  have h := (buf.headD 0).toNat_lt
  rw [statedSize]
  omega

theorem frameSize_append {buf : List Byte} (h : dbnHeaderSize ≤ buf.length) (x : List Byte) :
    frameSize (buf ++ x) = frameSize buf := by
  rw [dbnHeaderSize] at h
  have get : ∀ i < 8, (buf ++ x).getD i 0 = buf.getD i 0 := by
    intro i hi
    rw [List.getD_eq_getElem?_getD, List.getD_eq_getElem?_getD, List.getElem?_append_left (by omega)]
  simp only [frameSize, get 4 (by decide), get 5 (by decide), get 6 (by decide), get 7 (by decide)]

theorem lookRecord_stable (version : Byte) : Stable (lookRecord version) := by
  intro buf x
  by_cases h : buf.length < headerSize
  · exact Or.inl (by rw [lookRecord, if_pos h])
  · have hx : ¬(buf ++ x).length < headerSize := by rw [List.length_append]; omega
    have hs := statedSize_append (Nat.le_of_not_lt h) x
    by_cases hlen : buf.length < statedSize buf
    · by_cases h1 : statedSize buf < headerSize
      · exact Or.inr (by simp only [lookRecord, hs, if_neg h, if_neg hx, if_pos h1])
      by_cases h2 : kMaxRecordSize < statedSize buf
      · exact Or.inr (by simp only [lookRecord, hs, if_neg h, if_neg hx, if_neg h1, if_pos h2])
      · exact Or.inl (by simp only [lookRecord, if_neg h, if_neg h1, if_neg h2, if_pos hlen])
    · have hxlen : ¬(buf ++ x).length < statedSize buf := by rw [List.length_append]; omega
      refine Or.inr ?_
      simp only [lookRecord, hs, if_neg h, if_neg hx, if_neg hlen, if_neg hxlen,
        List.take_append_of_le_length (Nat.le_of_not_lt hlen)]

theorem lookMetadata_stable : Stable lookMetadata := by
  intro buf x
  by_cases h : buf.length < dbnHeaderSize
  · exact Or.inl (by rw [lookMetadata, if_pos h])
  · have h8 : 8 ≤ buf.length := Nat.le_of_not_lt h
    have hx : ¬(buf ++ x).length < dbnHeaderSize := by rw [List.length_append]; omega
    have hf := frameSize_append (Nat.le_of_not_lt h) x
    have ht : (buf ++ x).take 3 = buf.take 3 := List.take_append_of_le_length (by omega)
    have hg : (buf ++ x).getD 3 0 = buf.getD 3 0 := by
      rw [List.getD_eq_getElem?_getD, List.getD_eq_getElem?_getD,
        List.getElem?_append_left (by omega)]
    by_cases hlen : buf.length < dbnHeaderSize + frameSize buf
    · by_cases h1 : buf.take 3 ≠ magic
      · exact Or.inr (by simp only [lookMetadata, ht, if_neg h, if_neg hx, if_pos h1])
      by_cases h2 : kMaxMetadataSize < frameSize buf
      · exact Or.inr (by simp only [lookMetadata, ht, hf, if_neg h, if_neg hx, if_neg h1, if_pos h2])
      · exact Or.inl (by simp only [lookMetadata, if_neg h, if_neg h1, if_neg h2, if_pos hlen])
    · have hxlen : ¬(buf ++ x).length < dbnHeaderSize + frameSize buf := by
        rw [List.length_append]
        omega
      refine Or.inr ?_
      simp only [lookMetadata, ht, hf, hg, if_neg h, if_neg hx, if_neg hlen, if_neg hxlen]

/-- A record is recognised by its length. -/
theorem lookRecord_item {version : Byte} {buf b : List Byte} {n : ℕ}
    (h : lookRecord version buf = .item b n) :
    b = buf.take n ∧ n = statedSize buf ∧ headerSize ≤ n ∧ n ≤ buf.length := by
  simp only [lookRecord] at h
  split at h
  · cases h
  split at h
  · cases h
  split at h
  · cases h
  split at h
  · cases h
  split at h
  · cases h
  · simp only [Look.item.injEq] at h
    obtain ⟨rfl, rfl⟩ := h
    exact ⟨rfl, rfl, by omega, by omega⟩

/-- The DBN metadata block as a preamble. -/
def metadataPreamble : Preamble Byte Byte String where
  look := lookMetadata
  stable := lookMetadata_stable
  fits := by
    intro buf s n h
    simp only [lookMetadata] at h
    split at h
    · cases h
    split at h
    · simp only [Look.item.injEq] at h
      omega
    split at h
    · cases h
    split at h
    · cases h
    · simp only [Look.item.injEq] at h
      omega

/-- A record takes bytes. -/
theorem lookRecord_pos (version : Byte) {buf b : List Byte} {n : ℕ} (h : lookRecord version buf = .item b n) :
    0 < n := by
  have h1 := (lookRecord_item h).2.2.1
  rw [headerSize] at h1
  omega

/-- Records as items. -/
def recordFramer (version : Byte) : Framer Byte (List Byte) String where
  look := lookRecord version
  stable := lookRecord_stable version
  pos := lookRecord_pos version
  fits := fun h => (lookRecord_item h).2.2.2

/-! ### What the sink gets for a record -/

variable (D : Databento)

/-- The conversion size of a record given by its bytes. -/
def v3SizeOf (version : Byte) (rec : List Byte) : ℕ := conversionSize D version (rec.getD 1 0)

/-- The bytes a record read from `w` is converted to. -/
def convertedFrom (version : Byte) (w : Window Byte) (v3Size : ℕ) : List Byte :=
  slice (convertRecordToV3 D version (rtypeOf w) w v3Size).2 0 v3Size

/-- `ref` is a reference the parser can hand over for the record `rec`. -/
structure Delivers (version : Byte) (rec : List Byte) (ref : RecordRef) : Prop where
  size : ref.size = ref.data.length
  plain : v3SizeOf D version rec = 0 → ref.data = rec
  converted : 0 < v3SizeOf D version rec →
    ∃ w, Starts w rec ∧ ref.data = convertedFrom D version w (v3SizeOf D version rec)

/-- The record the sink should get: the record itself, or its conversion, its bytes followed by zeros. -/
def expected (version : Byte) (rec : List Byte) : List Byte :=
  if v3SizeOf D version rec = 0 then rec
  else convertedFrom D version (overwrite zeroed 0 rec) (v3SizeOf D version rec)

/-- The record is at least as long as the struct it is read as. -/
def LongEnough (version : Byte) (rec : List Byte) : Prop :=
  v3SizeOf D version rec ≠ 0 → sourceSize D version (rec.getD 1 0) ≤ rec.length

/-- **What is delivered depends on the record alone** when the fields that are read lie within it. -/
theorem Delivers.eq_of_fits {version : Byte} {rec : List Byte} {ref : RecordRef}
    (h : Delivers D version rec ref) (h16 : headerSize ≤ rec.length)
    (hfits : Fits D version (rec.getD 1 0) rec.length) : ref.data = expected D version rec := by
  by_cases h0 : v3SizeOf D version rec = 0
  · rw [h.plain h0, expected, if_pos h0]
  · obtain ⟨w, hw, hd⟩ := h.converted (Nat.pos_of_ne_zero h0)
    have hw' := starts_overwrite zeroed rec
    have hr : ∀ u : Window Byte, Starts u rec → rtypeOf u = rec.getD 1 0 := by
      intro u hu
      rw [headerSize] at h16
      rw [List.getD_eq_getElem?_getD, hu 1 (by omega)]
      rfl
    rw [hd, expected, if_neg h0, convertedFrom, convertedFrom, hr _ hw, hr _ hw',
      convertRecordToV3_congr D (hw.agree hw') h16 hfits]

/-- The same for a record that is as long as its struct. -/
theorem Delivers.eq_expected {version : Byte} {rec : List Byte} {ref : RecordRef}
    (h : Delivers D version rec ref) (h16 : headerSize ≤ rec.length)
    (hlong : LongEnough D version rec) : ref.data = expected D version rec := by
  by_cases h0 : v3SizeOf D version rec = 0
  · rw [h.plain h0, expected, if_pos h0]
  · exact h.eq_of_fits D h16 (fits_of_sourceSize_le D (hlong h0))

/-! ### The four read paths agree -/

section Front

variable {chain : Chain}

/-- Memory behind a usable pointer begins with the front of the chain. -/
theorem starts_window {len : ℕ} (hlen : 0 < len) {s : Segment} {pos : ℕ}
    (h : srcPtr chain len = some (s, pos)) : Starts (window s pos) ((bytes chain).take len) := by
  rw [srcPtr] at h
  split at h
  · rename_i hc
    obtain ⟨s', pos', hd, hfit, htake⟩ := BufferChain.contiguous_slice id hc hlen
    rw [hd] at h
    simp only at h
    split at h
    · simp only [Option.some.injEq, Prod.mk.injEq] at h
      obtain ⟨rfl, rfl⟩ := h
      rw [List.drop_zero] at htake
      intro i hi
      have hi' : i < len := by
        rw [List.length_take] at hi
        omega
      rw [id_eq] at hfit htake
      have hlt : pos' + i < s'.bytes.length := by
        rw [Segment.size] at hfit
        omega
      rw [show bytes chain = BufferChain.bytes id chain from rfl, htake,
        List.getElem?_take_of_lt hi', List.getElem?_drop, List.getElem?_eq_getElem hlt, window,
        Segment.mem_of_lt _ hlt]
    · exact absurd h (by simp)
  · exact absurd h (by simp)

theorem starts_copied (chain : Chain) (len : ℕ) (buffer : Window Byte) :
    Starts (copied chain len buffer) ((bytes chain).take len) := by
  rw [copied, BufferChain.copyTo_eq, List.drop_zero]
  exact starts_overwrite buffer _

theorem recordSize_of_starts {w : Window Byte} {l : List Byte} (h : Starts w l) (hl : 0 < l.length) :
    recordSize w = statedSize l := by
  have h0 := h 0 hl
  rw [recordSize, statedSize, List.headD_eq_head?_getD, List.head?_eq_getElem?, h0]
  rfl

/-- In place or copied, the header states one size. -/
theorem frontSize_eq (h16 : headerSize ≤ (bytes chain).length) :
    frontSize chain = statedSize (bytes chain) := by
  have hlen : 0 < ((bytes chain).take headerSize).length := by
    rw [List.length_take]
    rw [headerSize] at *
    omega
  rw [frontSize, ← statedSize_take (show 0 < headerSize by decide)]
  split
  · rename_i hs
    exact recordSize_of_starts (starts_window (by decide) hs) hlen
  · exact recordSize_of_starts (starts_copied chain headerSize zeroed) hlen

theorem frontRtype_eq {len : ℕ} (h16 : headerSize ≤ len) (hle : len ≤ (bytes chain).length) :
    frontRtype chain (srcPtr chain len) = ((bytes chain).take len).getD 1 0 := by
  rw [headerSize] at h16
  cases hs : srcPtr chain len with
  | some p =>
    have h1 := starts_window (by omega) hs 1 (by rw [List.length_take]; omega)
    rw [List.getD_eq_getElem?_getD, h1]
    rfl
  | none =>
    rw [frontRtype, BufferChain.copyTo_eq, show BufferChain.bytes id chain = bytes chain from rfl,
      List.getD_eq_getElem?_getD, List.getElem?_take_of_lt (by omega), List.headD_eq_head?_getD,
      List.head?_take, if_neg (by decide), List.head?_drop]

/-- **The reference made for the record at the front**, on each of the four paths. -/
theorem makeRef_spec (version : Byte) (temp : Window Byte) {len : ℕ} (h16 : headerSize ≤ len)
    (hle : len ≤ (bytes chain).length) :
    Delivers D version ((bytes chain).take len) (makeRef D version temp chain len).1 := by
  have hlen : ((bytes chain).take len).length = len := by rw [List.length_take]; omega
  have hpos : 0 < len := by rw [headerSize] at h16; omega
  have hv : conversionSize D version (frontRtype chain (srcPtr chain len)) =
      v3SizeOf D version ((bytes chain).take len) := by
    rw [frontRtype_eq h16 hle, v3SizeOf]
  simp only [makeRef, hv]
  split
  · rename_i h0
    split
    · rename_i s pos hs
      exact ⟨(length_slice _ _ _).symm, fun h => absurd h (by omega),
        fun _ => ⟨window s pos, starts_window hpos hs, rfl⟩⟩
    · exact ⟨(length_slice _ _ _).symm, fun h => absurd h (by omega),
        fun _ => ⟨copied chain len temp, starts_copied chain len temp, rfl⟩⟩
  · rename_i h0
    split
    · rename_i s pos hs
      refine ⟨(length_slice _ _ _).symm, fun _ => ?_, fun h => absurd h h0⟩
      have h := (starts_window hpos hs).slice
      rw [hlen] at h
      exact h
    · have hcopy : chain.copyTo id 0 len = (bytes chain).take len := by
        rw [BufferChain.copyTo_eq, List.drop_zero]
      exact ⟨by rw [hcopy, hlen], fun _ => hcopy, fun h => absurd h h0⟩

/-- **One round is one look at the bytes.** -/
theorem parseFront_spec (hwf : WF chain) (version : Byte) (temp : Window Byte)
    (h16 : headerSize ≤ (bytes chain).length) :
    match lookRecord version (bytes chain) with
    | .more => parseFront D version temp chain = .wait
    | .bad msg => parseFront D version temp chain = .fail msg
    | .item rec n => ∃ ref temp', parseFront D version temp chain = .record ref temp' n ∧
        Delivers D version rec ref := by
  have hsize : chain.size = (bytes chain).length := size_eq hwf
  simp only [lookRecord, parseFront, frontSize_eq h16, hsize, if_neg (Nat.not_lt.mpr h16)]
  by_cases h1 : statedSize (bytes chain) < headerSize
  · simp only [if_pos h1]
  · simp only [if_neg h1]
    by_cases h2 : kMaxRecordSize < statedSize (bytes chain)
    · simp only [if_pos h2]
    · simp only [if_neg h2]
      by_cases h3 : (bytes chain).length < statedSize (bytes chain)
      · simp only [if_pos h3]
      · simp only [if_neg h3]
        by_cases h4 : 3 < version
        · simp only [if_pos h4]
        · simp only [if_neg h4]
          exact ⟨_, _, rfl, makeRef_spec D version temp (Nat.le_of_not_lt h1)
            (Nat.le_of_not_lt h3)⟩

end Front

/-- The loop ended as `d` says, `d` being the drain of the bytes it started with. -/
structure Drains (version : Byte) (d : Drained Byte (List Byte) String) (batch : List RecordRef)
    (r : Parsed) : Prop where
  wf : WF r.chain
  rest : bytes r.chain = d.rest
  error : r.error = d.error
  batch : ∃ refs, r.batch = batch ++ refs ∧ List.Forall₂ (Delivers D version) d.items refs

theorem Drains.stop {version : Byte} {chain : Chain} (hwf : WF chain) (batch : List RecordRef)
    (e : Option String) : Drains D version ⟨[], bytes chain, e⟩ batch ⟨chain, batch, e⟩ :=
  ⟨hwf, rfl, rfl, [], (List.append_nil batch).symm, .nil⟩

/-- **The loop drains the chain.** -/
theorem parseLoop_spec (version : Byte) {fuel : ℕ} {chain : Chain} (hwf : WF chain)
    (hfuel : (bytes chain).length ≤ fuel) (temp : Window Byte) (batch : List RecordRef) :
    Drains D version (drain (recordFramer version) (bytes chain)) batch
      (parseLoop D version fuel temp chain batch) := by
  induction fuel generalizing chain temp batch with
  | zero =>
    have hl : (recordFramer version).look (bytes chain) = .more := by
      show lookRecord version (bytes chain) = .more
      rw [lookRecord, if_pos (by rw [headerSize]; omega)]
    rw [drain_more _ hl, parseLoop]
    exact Drains.stop D hwf batch none
  | succ fuel ih =>
    rw [parseLoop, size_eq hwf]
    by_cases h16 : (bytes chain).length < headerSize
    · have hl : (recordFramer version).look (bytes chain) = .more := by
        show lookRecord version (bytes chain) = .more
        rw [lookRecord, if_pos h16]
      rw [if_pos h16, drain_more _ hl]
      exact Drains.stop D hwf batch none
    · have hfront := parseFront_spec D hwf version temp (Nat.le_of_not_lt h16)
      rw [if_neg h16]
      cases hl : lookRecord version (bytes chain) with
      | more =>
        rw [hl] at hfront
        rw [hfront, drain_more (recordFramer version) hl]
        exact Drains.stop D hwf batch none
      | bad msg =>
        rw [hl] at hfront
        rw [hfront, drain_bad (recordFramer version) hl]
        exact Drains.stop D hwf batch (some msg)
      | item rec n =>
        rw [hl] at hfront
        obtain ⟨ref, temp', hround, hdel⟩ := hfront
        have hb := bytes_consumed hwf n
        have hn := (lookRecord_item hl).2.2.1
        have hfuel' : (bytes (chain.consume id n)).length ≤ fuel := by
          rw [headerSize] at hn h16
          rw [hb, List.length_drop]
          omega
        obtain ⟨h1, h2, h3, refs, h4, h5⟩ :=
          ih (wf_consumed hwf n) hfuel' temp' (batch ++ [ref])
        rw [hb] at h2 h3 h5
        rw [hround, drain_item (recordFramer version) hl]
        refine ⟨h1, h2, h3, ref :: refs, ?_, .cons hdel h5⟩
        rw [h4, List.append_assoc]
        rfl

/-! ### One call of `OnData` -/

/-- Parser and chain stand where the framing parser `p` stands. -/
structure Tracks (c : Component Parser) (chain : Chain) (p : Progress Byte Byte String) : Prop where
  wf : WF chain
  buffer : bytes chain = p.buffer
  finalized : c.finalized = p.error.isSome
  phase : p.phase = if c.own.metadataParsed then some c.own.dbnVersion else none
  version : c.own.metadataParsed = false → c.own.dbnVersion = 3

/-- What a call tells the sink when it took off `items` and ended with `error`. -/
inductive Told (version : Byte) : List (List Byte) → Option String → List SinkEvent → Prop
  | nothing {items} (none_yet : items = []) : Told version items none []
  | batch {items refs} (ne : refs ≠ []) (refs_eq : List.Forall₂ (Delivers D version) items refs) :
      Told version items none [.data refs]
  | error {items} (msg : String) :
      Told version items (some msg) [.error { code := .parseError, message := msg }]

/-- `SkipMetadataIfNeeded` on a stream that may begin with metadata. -/
theorem skipMetadata_spec {c : Component Parser} {chain : Chain} (hwf : WF chain)
    (hm : c.own.metadataParsed = false) (hv : c.own.dbnVersion = 3) :
    match lookMetadata (bytes chain) with
    | .more => skipMetadataIfNeeded c chain = (c, chain, false)
    | .bad msg => skipMetadataIfNeeded c chain = (reportTerminalError msg c, chain, false)
    | .item v n => ∃ chain', skipMetadataIfNeeded c chain = (setVersion v c, chain', true) ∧
        WF chain' ∧ bytes chain' = (bytes chain).drop n := by
  have hsize : chain.size = (bytes chain).length := size_eq hwf
  have hcopy : chain.copyTo id 0 dbnHeaderSize = (bytes chain).take 8 := by
    rw [BufferChain.copyTo_eq, List.drop_zero]
    rfl
  by_cases h8 : (bytes chain).length < dbnHeaderSize
  · simp [lookMetadata, skipMetadataIfNeeded, hm, hsize, h8]
  · have ht : ((bytes chain).take 8).take 3 = (bytes chain).take 3 := by
      rw [List.take_take]
      rfl
    have hg : ((bytes chain).take 8).getD 3 0 = (bytes chain).getD 3 0 := by
      rw [List.getD_eq_getElem?_getD, List.getD_eq_getElem?_getD,
        List.getElem?_take_of_lt (by decide)]
    have hf : frameSize ((bytes chain).take 8) = frameSize (bytes chain) := by
      have h8' : dbnHeaderSize ≤ ((bytes chain).take 8).length := by
        rw [List.length_take]
        rw [dbnHeaderSize] at *
        omega
      have h := frameSize_append h8' ((bytes chain).drop 8)
      rwa [List.take_append_drop, eq_comm] at h
    simp only [lookMetadata, skipMetadataIfNeeded, hm, hsize, if_neg h8, hcopy, ht, hg, hf,
      Bool.false_eq_true, if_false]
    by_cases h1 : (bytes chain).take 3 ≠ magic
    · simp only [if_pos h1]
      refine ⟨chain, ?_, hwf, rfl⟩
      simp only [setParsed, setVersion, ← hv]
    · simp only [if_neg h1]
      by_cases h2 : kMaxMetadataSize < frameSize (bytes chain)
      · simp only [if_pos h2]
      · simp only [if_neg h2]
        by_cases h3 : (bytes chain).length < dbnHeaderSize + frameSize (bytes chain)
        · simp only [if_pos h3]
        · simp only [if_neg h3]
          exact ⟨_, rfl, wf_consumed hwf _, bytes_consumed hwf _⟩

/-- Parsing the records of a chain is entering the record phase. -/
theorem parseRecords_spec {c : Component Parser} {chain : Chain} (hwf : WF chain)
    (hf : c.finalized = false) (hm : c.own.metadataParsed = true) (temp : Window Byte) :
    let r := parseRecords D temp c chain
    let q := enter recordFramer c.own.dbnVersion (bytes chain)
    Tracks r.1 r.2 q.2 ∧
      ∃ told, r.1.own.events = c.own.events ++ told ∧ Told D r.1.own.dbnVersion q.1 q.2.error told := by
  obtain ⟨h1, h2, h3, refs, h4, h5⟩ :=
    parseLoop_spec D c.own.dbnVersion hwf (Nat.le_of_eq (size_eq hwf).symm) temp []
  rw [List.nil_append] at h4
  simp only [parseRecords, enter]
  cases he : (drain (recordFramer c.own.dbnVersion) (bytes chain)).error with
  | some msg =>
    rw [he] at h3
    simp only [h3, reportTerminalError, hf, Bool.false_eq_true, if_false, tell]
    exact ⟨⟨h1, h2, rfl, by simp [hm], by simp [hm]⟩, _, rfl, .error msg⟩
  | none =>
    rw [he] at h3
    simp only [h3, h4]
    cases refs with
    | nil =>
      rw [List.isEmpty_nil, if_pos rfl]
      exact ⟨⟨h1, h2, hf, by simp [hm], by simp [hm]⟩, [], (List.append_nil _).symm,
        .nothing (List.forall₂_nil_right_iff.mp h5)⟩
    | cons ref refs =>
      exact ⟨⟨h1, h2, hf, by simp [tell, hm], by simp [tell, hm]⟩, _, rfl, .batch (by simp) h5⟩

/-- **One call is one `feed`**, except that an error takes the batch with it. -/
theorem onData_spec {c : Component Parser} {chain : Chain} {p : Progress Byte Byte String}
    (h : Tracks c chain p) (temp : Window Byte) :
    let r := onData D temp c chain
    let q := feed metadataPreamble recordFramer p []
    Tracks r.1 r.2 q.2 ∧
      (p.error ≠ none → r.1.own.events = c.own.events) ∧
      (p.error = none → ∃ told, r.1.own.events = c.own.events ++ told ∧
        Told D r.1.own.dbnVersion q.1 q.2.error told) := by
  cases he : p.error with
  | some e =>
    have hf : c.finalized = true := by rw [h.finalized, he]; rfl
    have hq := feed_error metadataPreamble recordFramer (p := p) (by simp [he]) []
    have hr : onData D temp c chain = (c, chain) := by simp [onData, hf]
    rw [List.append_nil] at hq
    rw [hr, hq]
    exact ⟨h, fun _ => rfl, fun h => absurd h (by simp)⟩
  | none =>
    have hf : c.finalized = false := by rw [h.finalized, he]; rfl
    cases hm : c.own.metadataParsed with
    | true =>
      have hphase := h.phase
      rw [hm, if_pos rfl] at hphase
      have hq : feed metadataPreamble recordFramer p [] =
          enter recordFramer c.own.dbnVersion (bytes chain) := by
        simp only [feed, he, hphase, List.append_nil, h.buffer]
      have hr : onData D temp c chain = parseRecords D temp c chain := by
        simp [onData, hf, skipMetadataIfNeeded, hm]
      obtain ⟨h1, h2⟩ := parseRecords_spec D h.wf hf hm temp
      rw [hr, hq]
      exact ⟨h1, fun h => absurd rfl h, fun _ => h2⟩
    | false =>
      have hphase := h.phase
      rw [hm, if_neg (by simp)] at hphase
      have hskip := skipMetadata_spec h.wf hm (h.version hm)
      have hlook : metadataPreamble.look (bytes chain) = lookMetadata (bytes chain) := rfl
      cases hl : lookMetadata (bytes chain) with
      | more =>
        rw [hl] at hskip
        have hr : onData D temp c chain = (c, chain) := by simp [onData, hf, hskip]
        have hq : feed metadataPreamble recordFramer p [] = ([], ⟨none, bytes chain, none⟩) := by
          simp only [feed, he, hphase, List.append_nil, ← h.buffer, hlook, hl]
        rw [hr, hq]
        exact ⟨⟨h.wf, rfl, hf, by simp [hm], h.version⟩, fun h => absurd rfl h,
          fun _ => ⟨[], (List.append_nil _).symm, .nothing rfl⟩⟩
      | bad msg =>
        rw [hl] at hskip
        have hr : onData D temp c chain = (reportTerminalError msg c, chain) := by
          simp [onData, hf, hskip]
        have hq : feed metadataPreamble recordFramer p [] = ([], ⟨none, bytes chain, some msg⟩) := by
          simp only [feed, he, hphase, List.append_nil, ← h.buffer, hlook, hl]
        rw [hr, hq, reportTerminalError, hf]
        exact ⟨⟨h.wf, rfl, rfl, by simp [tell, hm], h.version⟩, fun h => absurd rfl h,
          fun _ => ⟨_, rfl, .error msg⟩⟩
      | item v n =>
        rw [hl] at hskip
        obtain ⟨chain', hskip, hwf', hb'⟩ := hskip
        have hr : onData D temp c chain = parseRecords D temp (setVersion v c) chain' := by
          simp [onData, hf, hskip]
        obtain ⟨h1, h2⟩ :=
          parseRecords_spec D (c := setVersion v c) hwf' hf rfl temp
        have hq : feed metadataPreamble recordFramer p [] =
            enter recordFramer v ((bytes chain).drop n) := by
          simp only [feed, he, hphase, List.append_nil, ← h.buffer, hlook, hl]
        rw [hb'] at h1 h2
        rw [hr, hq]
        exact ⟨h1, fun h => absurd rfl h, fun _ => h2⟩

end DbnPipe.Dbn
