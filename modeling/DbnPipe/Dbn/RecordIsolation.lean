import DbnPipe.Dbn.DeliveredRecords

/-!
# Does a converted record depend on its own bytes only?

The converters read a fixed struct, whatever length the record states.

* `Isolated` — a converted record is the same in any two runs, and whatever memory lies behind it;
* `inPlace` — a run that converts a record in a segment which holds old bytes behind it;
* `isolated_iff` — **a record is isolated exactly when it holds every field that its converter reads**.
-/

namespace DbnPipe.Dbn

open Layout Framing Chain

variable (D : Databento)

/-- The `i`-th records of any two runs, both with the bytes `rec` and of the version `version`, are
delivered as the same bytes; and a conversion sees nothing of the memory behind `rec`. -/
def Isolated (version : Byte) (rec : List Byte) : Prop :=
  (∀ (recycler recycler' : Option ℕ) (ds ds' : List Delivery) (i : ℕ) (ref ref' : RecordRef),
    streamVersion (ds.flatMap Delivery.bytes) = version →
    streamVersion (ds'.flatMap Delivery.bytes) = version →
    (framed ds).1.flatten[i]? = some rec → (framed ds').1.flatten[i]? = some rec →
    (batched (receiveAll D recycler ds).1.own.events)[i]? = some ref →
    (batched (receiveAll D recycler' ds').1.own.events)[i]? = some ref' →
      ref.data = ref'.data ∧ ref.size = ref'.size) ∧
  ∀ w w', Starts w rec → Starts w' rec →
    convertRecordToV3 D version (rtypeOf w) w (v3SizeOf D version rec) =
      convertRecordToV3 D version (rtypeOf w') w' (v3SizeOf D version rec)

/-- A reference delivered at a position was made for the record at that position. -/
theorem delivers_at {recycler : Option ℕ} {ds : List Delivery} {i : ℕ} {rec : List Byte} {ref : RecordRef}
    (hrec : (framed ds).1.flatten[i]? = some rec)
    (href : (batched (receiveAll D recycler ds).1.own.events)[i]? = some ref) :
    Delivers D (streamVersion (ds.flatMap Delivery.bytes)) rec ref := by
  obtain ⟨ok, hok, -, -, hall⟩ := run_delivered D recycler ds
  obtain ⟨hlt, hget⟩ := List.getElem?_eq_some_iff.mp href
  have hi : i < (framed ok).1.flatten.length := hall.length_eq ▸ hlt
  have hsame : (framed ok).1.flatten[i] = rec := by
    obtain ⟨t, ht⟩ := framed_prefix hok
    rw [← ht, List.getElem?_append_left hi, List.getElem?_eq_getElem hi] at hrec
    exact Option.some.inj hrec
  have hd := hall.get hi hlt
  rw [List.get_eq_getElem, List.get_eq_getElem, hget, hsame] at hd
  exact hd

/-- **A record that holds the fields read is isolated.** -/
theorem isolated_of_fits {version : Byte} {rec : List Byte} (h16 : headerSize ≤ rec.length)
    (hfits : Fits D version (rec.getD 1 0) rec.length) : Isolated D version rec := by
  constructor
  · intro recycler recycler' ds ds' i ref ref' hv hv' hrec hrec' href href'
    have hd := delivers_at D hrec href
    have hd' := delivers_at D hrec' href'
    rw [hv] at hd
    rw [hv'] at hd'
    have hdata : ref.data = ref'.data := by
      rw [hd.eq_of_fits D h16 hfits, hd'.eq_of_fits D h16 hfits]
    exact ⟨hdata, by rw [hd.size, hd'.size, hdata]⟩
  · intro w w' hw hw'
    rw [rtypeOf_of_starts hw h16, rtypeOf_of_starts hw' h16,
      convertRecordToV3_congr D (hw.agree hw') h16 hfits]

/-! ### A record in a segment that held other data -/

/-- A metadata block without a body. -/
def bare (version : Byte) : Metadata := ⟨version, [], Nat.zero_le _⟩

/-- A segment with one record; behind it the array holds the byte `old`. -/
def stale (r : Record) (old : Byte) : Segment where
  bytes := r.bytes
  rest := fun _ => old
  addr := 8
  size_le := r.le_max
  addr_pos := Segment.blank.addr_pos
  addr_le := Segment.blank.addr_le

/-- The call that brings the metadata. -/
def bareCall (version : Byte) : Delivery :=
  ⟨zeroed, [.ofBytes (bare version).bytes (by rw [length_metadata]; exact show 8 ≤ 64 * 1024 by decide)]⟩

/-- The metadata in one call, the record in the next. -/
def inPlace (version : Byte) (r : Record) (old : Byte) : List Delivery :=
  [bareCall version, ⟨zeroed, [stale r old]⟩]

theorem bareCall_bytes (version : Byte) : (bareCall version).bytes = (bare version).bytes := by
  simp [bareCall, Delivery.bytes]

theorem drain_nil (version : Byte) : drain (recordFramer version) [] = ⟨[], [], none⟩ := by
  have hlook : (recordFramer version).look [] = .more := by
    show lookRecord version [] = .more
    rw [lookRecord, if_pos (by decide)]
  exact drain_more _ hlook

theorem inPlace_bytes (version : Byte) (r : Record) (old : Byte) :
    (inPlace version r old).flatMap Delivery.bytes =
      preamble (some (bare version)) ++ ([r].flatMap Record.bytes ++ []) := by
  rw [inPlace, List.flatMap_cons, bareCall_bytes]
  simp [Delivery.bytes, preamble, stale]

theorem window_stale (r : Record) (old : Byte) : window (stale r old) 0 = padded r.bytes old := by
  funext i
  simp [window, Segment.mem, stale, padded, overwrite]

/-- A loop on less than a header stops. -/
theorem parseLoop_short {version : Byte} {temp : Window Byte} {chain : Chain} {batch : List RecordRef}
    (h : chain.size < headerSize) (fuel : ℕ) :
    parseLoop D version fuel temp chain batch = ⟨chain, batch, none⟩ := by
  cases fuel with
  | zero => rfl
  | succ fuel => rw [parseLoop, if_pos h]

/-- The chain that holds just this segment. -/
def single (s : Segment) (recycler : Option ℕ) : Chain :=
  { segments := [s], totalSize := s.size, recycleCallback := recycler }

theorem append_of_bytes_nil {chain : Chain} (hwf : WF chain) (hb : bytes chain = []) {s : Segment}
    (hs : 0 < s.size) : BufferChain.append id chain s = single s chain.recycleCallback := by
  have hsegs := (BufferChain.bytes_eq_nil_iff id hwf).mp hb
  have hoff := hwf.offset_nil hsegs
  have htotal := hwf.size_eq
  rw [show BufferChain.bytes id chain = [] from hb, List.length_nil] at htotal
  rw [BufferChain.append, if_pos (show 0 < (id s).size from hs), single, hsegs, hoff, htotal, id_eq,
    Nat.zero_add, List.nil_append]

theorem srcPtr_stale (r : Record) (old : Byte) (recycler : Option ℕ) :
    srcPtr (single (stale r old) recycler) r.bytes.length = some (stale r old, 0) := by
  have h16 := r.header_le
  rw [headerSize] at h16
  have hseek : (single (stale r old) recycler).seek id 0 = ([stale r old], 0) := by
    have hnot : ¬(id (stale r old)).bytes.length ≤ (single (stale r old) recycler).consumedOffset + 0 := by
      show ¬r.bytes.length ≤ 0
      omega
    rw [BufferChain.seek, show (single (stale r old) recycler).segments = [stale r old] from rfl,
      Chunks.locate, if_neg hnot]
    rfl
  have hcont : (single (stale r old) recycler).isContiguous id 0 r.bytes.length = true := by
    rw [BufferChain.isContiguous, hseek, if_neg (by simp [single]), if_neg (by omega)]
    simp [stale, Segment.size]
  rw [srcPtr, if_pos hcont, BufferChain.dataAt, hseek]
  simp only
  exact if_pos (by simp [aligned, stale])

/-- What the call with the record gives the sink. -/
theorem onData_stale {c : Component Parser} {chain : Chain} {version : Byte} (hf : c.finalized = false)
    (hm : c.own.metadataParsed = true) (hver : c.own.dbnVersion = version) (hv : ¬3 < version)
    (hwf : WF chain) (hb : bytes chain = []) (r : Record) (old : Byte)
    (h0 : 0 < v3SizeOf D version r.bytes) (temp : Window Byte) :
    ∃ ref, (onData D temp c (BufferChain.append id chain (stale r old))).1.own.events =
        c.own.events ++ [.data [ref]] ∧
      ref.data = convertedFrom D version (padded r.bytes old) (v3SizeOf D version r.bytes) := by
  have h16 := r.header_le
  have hpos : 0 < (stale r old).size := Nat.lt_of_lt_of_le (by decide) h16
  have hwf' := BufferChain.wf_append id hwf (stale r old)
  have hbytes : bytes (BufferChain.append id chain (stale r old)) = r.bytes := by
    rw [show bytes (BufferChain.append id chain (stale r old)) = _ from
      BufferChain.bytes_append id hwf (stale r old), show BufferChain.bytes id chain = [] from hb]
    rfl
  rw [append_of_bytes_nil hwf hb hpos] at hwf' hbytes ⊢
  generalize chain.recycleCallback = recycler at hwf' hbytes ⊢
  -- the one round of the loop
  have hfront := parseFront_spec D hwf' version temp (by rw [hbytes]; exact h16)
  have hlook := lookRecord_bytes r hv []
  rw [List.append_nil] at hlook
  rw [hbytes, hlook] at hfront
  obtain ⟨ref, temp', hround, -⟩ := hfront
  have hmake := parseFront_record D hround
  refine ⟨ref, ?_, ?_⟩
  · have hrest : bytes ((single (stale r old) recycler).consume id r.bytes.length) = [] := by
      rw [bytes_consumed hwf', hbytes, List.drop_length]
    have hshort : ((single (stale r old) recycler).consume id r.bytes.length).size < headerSize := by
      rw [size_eq (wf_consumed hwf' _), hrest]
      decide
    have hsize : (single (stale r old) recycler).size = r.bytes.length := rfl
    have hloop : parseLoop D version (single (stale r old) recycler).size temp
        (single (stale r old) recycler) [] =
          ⟨(single (stale r old) recycler).consume id r.bytes.length, [ref], none⟩ := by
      rw [hsize]
      obtain ⟨n, hn⟩ : ∃ n, r.bytes.length = n + 1 :=
        ⟨r.bytes.length - 1, by rw [headerSize] at h16; omega⟩
      rw [hn, parseLoop, hsize, if_neg (by omega), hround, hn]
      exact parseLoop_short D (by rw [← hn]; exact hshort) n
    rw [onData, if_neg (by simp [hf])]
    simp only [skipMetadataIfNeeded, hm, if_true, Bool.not_true, Bool.false_eq_true, if_false, parseRecords,
      hver, hloop]
    rfl
  · have htype : frontRtype (single (stale r old) recycler) (some (stale r old, 0)) = r.bytes.getD 1 0 := by
      rw [frontRtype, window_stale]
      exact rtypeOf_of_starts (starts_padded r.bytes old) h16
    have href := congrArg Prod.fst hmake
    simp only [makeRef, srcPtr_stale, htype] at href
    rw [if_pos (show 0 < conversionSize D version (r.bytes.getD 1 0) from h0)] at href
    rw [← href, window_stale]
    rfl

/-- The run over metadata and record: one reference, to what the converter makes of the record and the old
bytes behind it. -/
theorem run_inPlace {version : Byte} (hv : ¬3 < version) (r : Record)
    (h0 : 0 < v3SizeOf D version r.bytes) (old : Byte) :
    ∃ ref, batched (receiveAll D none (inPlace version r old)).1.own.events = [ref] ∧
      ref.data = convertedFrom D version (padded r.bytes old) (v3SizeOf D version r.bytes) := by
  have hfeed : feed metadataPreamble recordFramer .start (bare version).bytes =
      ([], ⟨some version, [], none⟩) := by
    have hlook := lookMetadata_bytes (bare version) []
    rw [List.append_nil] at hlook
    rw [feed_start, hlook]
    simp only [List.drop_length, enter, drain_nil]
    rfl
  -- the call with the metadata leaves an empty chain and a parser of that version
  obtain ⟨htracks, -, hsent, -⟩ := receive_spec D (newParser_tracks none) (bareCall version)
  rw [bareCall_bytes, hfeed] at htracks hsent
  obtain ⟨⟨batches, hev, hall⟩, -⟩ := hsent rfl [] (newParser_sent D none)
  rw [receiveAll, inPlace, Runs.run_cons, Runs.run_cons, Runs.run_nil]
  generalize receive D (newParser none) (bareCall version) = s at htracks hev hall ⊢
  have hphase := htracks.phase
  have hparsed : s.1.own.metadataParsed = true := by
    by_contra hm
    rw [if_neg hm] at hphase
    exact absurd hphase (by simp)
  rw [if_pos hparsed, Option.some.injEq] at hphase
  obtain ⟨ref, hevents, hdata⟩ := onData_stale D htracks.finalized hparsed hphase.symm hv htracks.wf
    htracks.buffer r old h0 zeroed
  refine ⟨ref, ?_, hdata⟩
  rw [receive]
  show batched (onData D zeroed s.1 (BufferChain.append id s.2 (stale r old))).1.own.events = [ref]
  rw [hevents, hev, batched_append, batched_batches, List.forall₂_nil_left_iff.mp hall]
  rfl

theorem framed_inPlace {version : Byte} (hv : ¬3 < version) (r : Record) (old : Byte) :
    streamVersion ((inPlace version r old).flatMap Delivery.bytes) = version ∧
      (framed (inPlace version r old)).1.flatten = [r.bytes] := by
  have hlook := lookMetadata_bytes (bare version) ([r].flatMap Record.bytes ++ [])
  have hdrain := drain_records [r] (Or.inr hv) []
  rw [drain_nil] at hdrain
  rw [(framed_eq _).1, inPlace_bytes, streamVersion, feed_start,
    show preamble (some (bare version)) = (bare version).bytes from rfl, hlook]
  simp only [List.drop_left, enter]
  exact ⟨rfl, congrArg Drained.items hdrain⟩

/-- **When a converted record depends on its own bytes only.**  A record of version 1 or 2 that has a
converter is delivered as the same bytes in any two runs, whatever its neighbours, the thread-local buffer
and the cutting, if and only if every field that its converter reads lies within the record. -/
theorem isolated_iff {D : Databento} (hD : Members D) {version : Byte} (hv : version = 1 ∨ version = 2)
    (r : Record) (h0 : 0 < v3SizeOf D version r.bytes) :
    Isolated D version r.bytes ↔ Fits D version (r.bytes.getD 1 0) r.bytes.length := by
  have hle : ¬3 < version := by rcases hv with rfl | rfl <;> decide
  have h16 := r.header_le
  refine ⟨fun h => ?_, isolated_of_fits D h16⟩
  obtain ⟨-, hsize⟩ := v3SizeOf_pos D h0
  refine fits_of_agree hD fun a b => ?_
  obtain ⟨ref, href, hdata⟩ := run_inPlace D hle r h0 a
  obtain ⟨ref', href', hdata'⟩ := run_inPlace D hle r h0 b
  obtain ⟨hver, hrec⟩ := framed_inPlace hle r a
  obtain ⟨hver', hrec'⟩ := framed_inPlace hle r b
  obtain ⟨hsame, -⟩ := h.1 none none _ _ 0 ref ref' hver hver' (by rw [hrec]; rfl) (by rw [hrec']; rfl)
    (by rw [href]; rfl) (by rw [href']; rfl)
  rw [hdata, hdata', convertedFrom, convertedFrom, hsize,
    rtypeOf_of_starts (starts_padded r.bytes a) h16, rtypeOf_of_starts (starts_padded r.bytes b) h16]
    at hsame
  exact agree_of_slice hsame

/-- A statistics record as long as its struct. -/
theorem isolated_stat :
    Isolated databentoCpp 1 ([16, 0x18] ++ List.replicate 62 7) :=
  (isolated_iff members_cpp (Or.inl rfl) ⟨[16, 0x18] ++ List.replicate 62 7, by decide, by decide, by decide⟩
    (by decide)).mpr fun f => by cases f <;> decide

/-- A statistics record that is a header only. -/
def shortStat : Record := ⟨[4, 0x18] ++ List.replicate 14 7, by decide, by decide, by decide⟩

/-- The short record contiguous in a segment of zeros. -/
def direct : List Delivery := [bareCall 1, ⟨zeroed, [.ofBytes shortStat.bytes]⟩]

/-- The same record in two segments, when the thread-local buffer holds the byte 9 throughout. -/
def pieces : List Delivery :=
  [bareCall 1, ⟨fun _ => 9, [.ofBytes (shortStat.bytes.take 8), .ofBytes (shortStat.bytes.drop 8)]⟩]

/-- **The two conversion paths disagree on a short record**: one shows what the segment holds behind it, the
other what the thread-local buffer held before. -/
theorem not_isolated : ¬Isolated databentoCpp 1 shortStat.bytes := by
  intro h
  have hdirect : (batched (receiveAll databentoCpp none direct).1.own.events).map
      (fun ref => ref.data.getD 16 0) = [0] := by decide +kernel
  have hpieces : (batched (receiveAll databentoCpp none pieces).1.own.events).map
      (fun ref => ref.data.getD 16 0) = [9] := by decide +kernel
  cases hd : batched (receiveAll databentoCpp none direct).1.own.events with
  | nil => simp [hd] at hdirect
  | cons ref refs =>
    cases hp : batched (receiveAll databentoCpp none pieces).1.own.events with
    | nil => simp [hp] at hpieces
    | cons ref' refs' =>
      obtain ⟨hsame, -⟩ := h.1 none none direct pieces 0 ref ref' (by decide +kernel) (by decide +kernel)
        (by decide +kernel) (by decide +kernel) (by rw [hd]; rfl) (by rw [hp]; rfl)
      rw [hd, List.map_cons, List.cons.injEq, hsame] at hdirect
      rw [hp, List.map_cons, List.cons.injEq, hdirect.1] at hpieces
      exact absurd hpieces.1 (by decide)

end DbnPipe.Dbn
