import DbnPipe.Dbn.ParserFraming

/-!
# What the parser delivers over a whole stream

Runs of `DbnParserComponent`: the caller appends segments to one chain and calls `OnData`, again and again.

* `receive`, `receive_spec` — one delivery is one `feed`; `run_tracks`, `run_sent` — the same over a run;
* `DbnStream` — a well-formed stream: optional metadata, records, part of one more record;
* `split_independent` — **however a well-formed stream is cut**, the sink gets its records, converted,
  and the rest stays in the chain.
-/

namespace DbnPipe.Dbn

open Layout Framing Chain

/-! ### Deliveries -/

/-- One `OnData` call: what the thread-local buffer holds by then, and the segments appended before. -/
structure Delivery where
  temp : Window Byte
  segments : List Segment

/-- The bytes a delivery brings. -/
def Delivery.bytes (d : Delivery) : List Byte := d.segments.flatMap Segment.bytes

variable (D : Databento)

/-- A delivery to the parser and the caller's chain. -/
def receive (s : Component Parser × Chain) (d : Delivery) : Component Parser × Chain :=
  onData D d.temp s.1 (d.segments.foldl (BufferChain.append id) s.2)

/-- A new parser and an empty chain. -/
def newParser (recycler : Option ℕ) : Component Parser × Chain :=
  ({ own := {} }, { recycleCallback := recycler })

/-- The run over some deliveries. -/
def receiveAll (recycler : Option ℕ) (ds : List Delivery) : Component Parser × Chain :=
  Runs.run (receive D) (newParser recycler) ds

/-- The framing parser after the same bytes. -/
def framed (ds : List Delivery) : List (List (List Byte)) × Progress Byte Byte String :=
  feedAll metadataPreamble recordFramer .start (ds.map Delivery.bytes)

/-- The batches given to the sink so far hold the records `items`, and nothing else was said. -/
structure Sent (c : Component Parser) (items : List (List Byte)) : Prop where
  batches : ∃ batches : List (List RecordRef), c.own.events = batches.map .data ∧
    List.Forall₂ (Delivers D c.own.dbnVersion) items batches.flatten
  before : c.own.metadataParsed = false → items = []

/-- The version that a call leaves. -/
theorem version_kept {c c' : Component Parser} {chain chain' : Chain} {p : Progress Byte Byte String}
    {x : List Byte} (h : Tracks c chain p)
    (h' : Tracks c' chain' (feed metadataPreamble recordFramer p x).2)
    (hm : c.own.metadataParsed = true) : c'.own.dbnVersion = c.own.dbnVersion := by
  have hp := h.phase
  rw [hm, if_pos rfl] at hp
  have hq := h'.phase
  rw [feed_phase metadataPreamble recordFramer hp] at hq
  cases hm' : c'.own.metadataParsed with
  | false => simp [hm'] at hq
  | true =>
    rw [hm', if_pos rfl] at hq
    exact (Option.some.inj hq).symm

/-- **One delivery is one `feed`.** -/
theorem receive_spec {s : Component Parser × Chain} {p : Progress Byte Byte String}
    (h : Tracks s.1 s.2 p) (d : Delivery) :
    let q := feed metadataPreamble recordFramer p d.bytes
    let s' := receive D s d
    Tracks s'.1 s'.2 q.2 ∧
      (p.error ≠ none → s'.1.own.events = s.1.own.events) ∧
      (q.2.error = none → ∀ items, Sent D s.1 items → Sent D s'.1 (items ++ q.1)) ∧
      (p.error = none → ∀ msg, q.2.error = some msg → s'.1.own.events =
        s.1.own.events ++ [.error { code := .parseError, message := msg }]) := by
  intro q s'
  obtain ⟨hwf, hb⟩ := appendAll_spec h.wf d.segments
  have hin : Tracks s.1 (d.segments.foldl (BufferChain.append id) s.2)
      { p with buffer := p.buffer ++ d.bytes } :=
    ⟨hwf, by rw [hb, h.buffer]; rfl, h.finalized, h.phase, h.version⟩
  obtain ⟨h1, h2, h3⟩ := onData_spec D hin d.temp
  rw [← feed_push] at h1 h3
  have h1 : Tracks s'.1 s'.2 q.2 := h1
  have h3 : p.error = none → ∃ told, s'.1.own.events = s.1.own.events ++ told ∧
      Told D s'.1.own.dbnVersion q.1 q.2.error told := h3
  refine ⟨h1, h2, ?_, ?_⟩
  · intro hq items hs
    have hp : p.error = none := by
      by_contra hp
      rw [show q = _ from feed_error metadataPreamble recordFramer hp d.bytes] at hq
      exact hp hq
    obtain ⟨told, hev, htold⟩ := h3 hp
    obtain ⟨⟨batches, hb1, hb2⟩, hbefore⟩ := hs
    have hold : List.Forall₂ (Delivers D s'.1.own.dbnVersion) items batches.flatten := by
      cases hm : s.1.own.metadataParsed with
      | true =>
        rw [version_kept h h1 hm]
        exact hb2
      | false =>
        rw [hbefore hm] at hb2 ⊢
        rw [List.forall₂_nil_left_iff.mp hb2]
        exact .nil
    refine ⟨?_, ?_⟩
    · rw [hq] at htold
      rw [hev, hb1]
      cases htold with
      | nothing hnil =>
        refine ⟨batches, List.append_nil _, ?_⟩
        rw [hnil, List.append_nil]
        exact hold
      | batch hne hrefs =>
        rename_i refs
        refine ⟨batches ++ [refs], by rw [List.map_append]; rfl, ?_⟩
        rw [List.flatten_append, List.flatten_singleton]
        exact List.rel_append hold hrefs
    · intro hm
      have hphase := h1.phase
      rw [hm, if_neg (by simp)] at hphase
      rw [show q.1 = [] from feed_items_of_none metadataPreamble recordFramer hphase, List.append_nil]
      cases hm0 : s.1.own.metadataParsed with
      | false => exact hbefore hm0
      | true =>
        have hp := h.phase
        rw [hm0, if_pos rfl] at hp
        rw [show q.2.phase = _ from feed_phase metadataPreamble recordFramer hp d.bytes] at hphase
        exact absurd hphase (by simp)
  · intro hp msg hq
    obtain ⟨told, hev, htold⟩ := h3 hp
    rw [hq] at htold
    cases htold
    exact hev

/-! ### Runs -/

theorem newParser_tracks (recycler : Option ℕ) :
    Tracks (newParser recycler).1 (newParser recycler).2 .start :=
  ⟨wf_empty recycler, BufferChain.bytes_nil id recycler, rfl, rfl, fun _ => rfl⟩

theorem newParser_sent (recycler : Option ℕ) : Sent D (newParser recycler).1 [] :=
  ⟨⟨[], rfl, .nil⟩, fun _ => rfl⟩

/-- **A run of deliveries is a run of `feed`.** -/
theorem run_tracks {s : Component Parser × Chain} {p : Progress Byte Byte String}
    (h : Tracks s.1 s.2 p) (ds : List Delivery) :
    Tracks (Runs.run (receive D) s ds).1 (Runs.run (receive D) s ds).2
      (feedAll metadataPreamble recordFramer p (ds.map Delivery.bytes)).2 := by
  induction ds generalizing s p with
  | nil => exact h
  | cons d ds ih => exact ih (receive_spec D h d).1

/-- What a run without error has sent. -/
theorem run_sent {s : Component Parser × Chain} {p : Progress Byte Byte String}
    {items : List (List Byte)} (h : Tracks s.1 s.2 p) (hs : Sent D s.1 items) {ds : List Delivery}
    (hq : (feedAll metadataPreamble recordFramer p (ds.map Delivery.bytes)).2.error = none) :
    Sent D (Runs.run (receive D) s ds).1
      (items ++ (feedAll metadataPreamble recordFramer p (ds.map Delivery.bytes)).1.flatten) := by
  induction ds generalizing s p items with
  | nil =>
    show Sent D s.1 (items ++ [])
    rw [List.append_nil]
    exact hs
  | cons d ds ih =>
    obtain ⟨h1, -, h3, -⟩ := receive_spec D h d
    have hq' := feedAll_error metadataPreamble recordFramer
      (show (feedAll _ _ (feed _ _ p d.bytes).2 (ds.map Delivery.bytes)).2.error = none from hq)
    have hsent := ih h1 (h3 hq' items hs) hq
    rw [List.append_assoc] at hsent
    exact hsent

/-- After an error the sink hears nothing more. -/
theorem run_after_error {s : Component Parser × Chain} {p : Progress Byte Byte String}
    (h : Tracks s.1 s.2 p) (hp : p.error ≠ none) (ds : List Delivery) :
    (Runs.run (receive D) s ds).1.own.events = s.1.own.events := by
  induction ds generalizing s p with
  | nil => rfl
  | cons d ds ih =>
    obtain ⟨h1, h2, -, -⟩ := receive_spec D h d
    have hq : (feed metadataPreamble recordFramer p d.bytes).2.error ≠ none := by
      rw [feed_error metadataPreamble recordFramer hp]
      exact hp
    rw [Runs.run_cons, ih h1 hq, h2 hp]

theorem start_settled : Settled metadataPreamble recordFramer .start := by
  simp [Settled, feed, Progress.start, metadataPreamble, lookMetadata, dbnHeaderSize]

/-- The framing parser's end state depends on the bytes only. -/
theorem framed_eq (ds : List Delivery) :
    (framed ds).1.flatten =
        (feed metadataPreamble recordFramer .start (ds.flatMap Delivery.bytes)).1 ∧
      (framed ds).2 =
        (feed metadataPreamble recordFramer .start (ds.flatMap Delivery.bytes)).2 := by
  rw [List.flatMap_def]
  exact feedAll_eq metadataPreamble recordFramer .start start_settled _

/-! ### Well-formed streams -/

/-- A record: its header states its length, which is within the bounds. -/
structure Record where
  bytes : List Byte
  size_eq : statedSize bytes = bytes.length
  header_le : headerSize ≤ bytes.length
  le_max : bytes.length ≤ kMaxRecordSize

/-- The four bytes of a length, little-endian. -/
def le32 (n : ℕ) : List Byte :=
  [UInt8.ofNat n, UInt8.ofNat (n / 256), UInt8.ofNat (n / 256 ^ 2), UInt8.ofNat (n / 256 ^ 3)]

/-- A metadata block of an admissible size. -/
structure Metadata where
  version : Byte
  body : List Byte
  body_le : body.length ≤ kMaxMetadataSize

/-- The block as it stands in a stream. -/
def Metadata.bytes (m : Metadata) : List Byte :=
  magic ++ m.version :: le32 m.body.length ++ m.body

/-- The bytes of an optional metadata block. -/
def preamble (metadata : Option Metadata) : List Byte := (metadata.map Metadata.bytes).getD []

/-- The version records are read in; without metadata it is 3. -/
def versionOf (metadata : Option Metadata) : Byte := (metadata.map Metadata.version).getD 3

theorem frameSize_bytes (m : Metadata) (x : List Byte) : frameSize (m.bytes ++ x) = m.body.length := by
  have hle := m.body_le
  rw [kMaxMetadataSize] at hle
  simp only [Metadata.bytes, magic, le32, frameSize, List.cons_append, List.nil_append,
    List.getD_cons_succ, List.getD_cons_zero, UInt8.toNat_ofNat']
  omega

theorem length_metadata (m : Metadata) : m.bytes.length = dbnHeaderSize + m.body.length := by
  simp only [Metadata.bytes, magic, le32, dbnHeaderSize, List.cons_append, List.nil_append,
    List.length_cons]
  omega

/-- A complete metadata block is recognised. -/
theorem lookMetadata_bytes (m : Metadata) (x : List Byte) :
    lookMetadata (m.bytes ++ x) = .item m.version m.bytes.length := by
  have hle := m.body_le
  have hlen := length_metadata m
  have htake : (m.bytes ++ x).take 3 = magic := rfl
  have hget : (m.bytes ++ x).getD 3 0 = m.version := rfl
  rw [lookMetadata, if_neg (by rw [List.length_append]; omega), if_neg (by rw [htake]; simp),
    frameSize_bytes, if_neg (by omega), if_neg (by rw [List.length_append]; omega), hget, hlen]

/-- A stream that does not begin with `DBN` has no metadata. -/
theorem lookMetadata_raw {buf : List Byte} (h : ¬magic <+: buf) :
    lookMetadata buf = .more ∧ buf.length < dbnHeaderSize ∨ lookMetadata buf = .item 3 0 := by
  by_cases h8 : buf.length < dbnHeaderSize
  · exact Or.inl ⟨by rw [lookMetadata, if_pos h8], h8⟩
  · refine Or.inr ?_
    have htake : buf.take 3 ≠ magic := by
      intro ht
      rw [← ht] at h
      exact h (List.take_prefix 3 buf)
    rw [lookMetadata, if_neg h8, if_pos htake]

/-- A complete record is recognised in every supported version. -/
theorem lookRecord_bytes (r : Record) {version : Byte} (hv : ¬3 < version) (x : List Byte) :
    lookRecord version (r.bytes ++ x) = .item r.bytes r.bytes.length := by
  have h1 := r.header_le
  have h2 := r.le_max
  rw [lookRecord, statedSize_append h1, r.size_eq, if_neg (by rw [List.length_append]; omega),
    if_neg (by omega), if_neg (by omega), if_neg (by rw [List.length_append]; omega), if_neg hv,
    List.take_left]

/-- Part of a record is waited for. -/
theorem lookRecord_part (r : Record) {t : List Byte} (ht : t <+: r.bytes) (hne : t ≠ r.bytes)
    (version : Byte) : lookRecord version t = .more := by
  by_cases h16 : t.length < headerSize
  · rw [lookRecord, if_pos h16]
  · obtain ⟨y, hy⟩ := ht
    have hy0 : y ≠ [] := by
      rintro rfl
      exact hne (by rw [← hy, List.append_nil])
    have hlen : t.length < r.bytes.length := by
      rw [← hy, List.length_append]
      have := List.length_pos_iff.mpr hy0
      omega
    have hs : statedSize t = r.bytes.length := by
      rw [← r.size_eq, ← hy, statedSize_append (Nat.le_of_not_lt h16)]
    have h1 := r.header_le
    have h2 := r.le_max
    rw [lookRecord, if_neg h16, hs, if_neg (by omega), if_neg (by omega), if_pos hlen]

/-- Records in a row are taken off one by one. -/
theorem drain_records (rs : List Record) {version : Byte} (hv : rs = [] ∨ ¬3 < version)
    (tail : List Byte) :
    drain (recordFramer version) (rs.flatMap Record.bytes ++ tail) =
      ⟨rs.map Record.bytes ++ (drain (recordFramer version) tail).items,
        (drain (recordFramer version) tail).rest, (drain (recordFramer version) tail).error⟩ := by
  have h := drain_items (recordFramer version) id (rs.map Record.bytes) tail (by
    intro b hb x
    obtain ⟨r, hr, rfl⟩ := List.mem_map.mp hb
    rcases hv with rfl | hv
    · simp at hr
    · exact lookRecord_bytes r hv x)
  rw [List.flatMap_id, ← List.flatMap_def] at h
  exact h

/-- **The framing parser on metadata, records and a tail.** -/
theorem feed_stream (metadata : Option Metadata) (rs : List Record) (tail : List Byte)
    (hv : rs = [] ∨ ¬3 < versionOf metadata)
    (hraw : metadata = none → ¬magic <+: rs.flatMap Record.bytes ++ tail) :
    let d := drain (recordFramer (versionOf metadata)) tail
    ∃ phase, feed metadataPreamble recordFramer .start
        (preamble metadata ++ (rs.flatMap Record.bytes ++ tail)) =
          (rs.map Record.bytes ++ d.items, ⟨phase, d.rest, d.error⟩) ∧
      (phase = some (versionOf metadata) ∨
        rs = [] ∧ tail.length < dbnHeaderSize ∧ d.items = [] ∧ d.error = none) := by
  intro d
  have hd := drain_records rs hv tail
  cases metadata with
  | some m =>
    have hl : metadataPreamble.look ([] ++ (m.bytes ++ (rs.flatMap Record.bytes ++ tail))) =
        .item m.version m.bytes.length := lookMetadata_bytes m _
    refine ⟨some m.version, ?_, Or.inl rfl⟩
    show feed _ _ .start (m.bytes ++ (rs.flatMap Record.bytes ++ tail)) = _
    simp only [feed, Progress.start, hl]
    rw [List.nil_append, List.drop_left, enter]
    exact Prod.ext (congrArg Drained.items hd)
      (by rw [show drain (recordFramer m.version) _ = _ from hd])
  | none =>
    have hnil : ∀ l : List Byte, preamble none ++ l = l := fun _ => rfl
    rw [hnil]
    rcases lookMetadata_raw (hraw rfl) with ⟨hl, h8⟩ | hl
    · have hl' : metadataPreamble.look ([] ++ (rs.flatMap Record.bytes ++ tail)) = .more := hl
      rw [dbnHeaderSize, List.length_append] at h8
      have hrs : rs = [] := by
        cases rs with
        | nil => rfl
        | cons r rs =>
          have h1 := r.header_le
          rw [List.flatMap_cons, List.length_append] at h8
          rw [headerSize] at h1
          omega
      have ht : d = ⟨[], tail, none⟩ := drain_more _ (by
        show lookRecord _ tail = .more
        rw [lookRecord, if_pos (by rw [headerSize]; omega)])
      refine ⟨none, ?_, Or.inr ⟨hrs, by rw [dbnHeaderSize]; omega, by rw [ht], by rw [ht]⟩⟩
      subst hrs
      rw [ht]
      simp only [feed, Progress.start, hl']
      rfl
    · have hl' : metadataPreamble.look ([] ++ (rs.flatMap Record.bytes ++ tail)) = .item 3 0 := hl
      refine ⟨some 3, ?_, Or.inl rfl⟩
      simp only [feed, Progress.start, hl']
      rw [List.nil_append, List.drop_zero, enter]
      exact Prod.ext (congrArg Drained.items hd)
        (by rw [show drain (recordFramer 3) _ = _ from hd])

/-- A well-formed stream: optional metadata of a supported version, records, and possibly part of one more
record.  A stream without metadata does not look as if it had some. -/
structure DbnStream where
  metadata : Option Metadata
  supported : ∀ m ∈ metadata, 1 ≤ m.version ∧ m.version ≤ 3
  records : List Record
  tail : List Byte
  tail_part : ∃ r : Record, tail <+: r.bytes ∧ tail ≠ r.bytes
  unmarked : metadata = none → ¬magic <+: records.flatMap Record.bytes ++ tail

namespace DbnStream

/-- The stream as bytes. -/
def bytes (s : DbnStream) : List Byte :=
  preamble s.metadata ++ (s.records.flatMap Record.bytes ++ s.tail)

/-- The version its records are in. -/
def version (s : DbnStream) : Byte := versionOf s.metadata

theorem version_le (s : DbnStream) : ¬3 < s.version := by
  have h := s.supported
  rw [version, versionOf]
  cases hm : s.metadata with
  | none => decide
  | some m =>
    have h3 := (h m (by rw [hm]; rfl)).2
    exact UInt8.not_lt.mpr h3

end DbnStream

/-- The bytes of the records in a sink's batches, in order. -/
def delivered (events : List SinkEvent) : List (List Byte) :=
  events.flatMap fun
    | .data batch => batch.map RecordRef.data
    | _ => []

theorem delivered_batches (batches : List (List RecordRef)) :
    delivered (batches.map .data) = batches.flatten.map RecordRef.data := by
  induction batches with
  | nil => rfl
  | cons b bs ih =>
    rw [List.flatten_cons, List.map_append, ← ih]
    rfl

theorem data_of_delivers {version : Byte} {rs : List Record}
    (hlong : ∀ r ∈ rs, LongEnough D version r.bytes) {refs : List RecordRef}
    (h : List.Forall₂ (Delivers D version) (rs.map Record.bytes) refs) :
    refs.map RecordRef.data = rs.map fun r => expected D version r.bytes := by
  induction rs generalizing refs with
  | nil => rw [List.forall₂_nil_left_iff.mp h]; rfl
  | cons r rs ih =>
    obtain ⟨ref, refs', hr, hrs, rfl⟩ := List.forall₂_cons_left_iff.mp h
    rw [List.map_cons, List.map_cons, ih (fun q hq => hlong q (by simp [hq])) hrs,
      hr.eq_expected D r.header_le (hlong r (by simp))]

/-- Every reference states the length of its bytes. -/
theorem size_of_delivers {version : Byte} {recs : List (List Byte)} {refs : List RecordRef}
    (h : List.Forall₂ (Delivers D version) recs refs) : ∀ ref ∈ refs, ref.size = ref.data.length := by
  induction h with
  | nil => exact fun ref href => absurd href List.not_mem_nil
  | cons hd _ ih =>
    intro ref href
    rcases List.mem_cons.mp href with rfl | hrest
    · exact hd.size
    · exact ih ref hrest

/-- The version a run ends with is the one the framing parser found. -/
theorem version_of_phase {c : Component Parser} {chain : Chain} {p : Progress Byte Byte String}
    (h : Tracks c chain p) {v : Byte} (hp : p.phase = some v) : c.own.dbnVersion = v := by
  have hphase := h.phase
  rw [hp] at hphase
  cases hm : c.own.metadataParsed with
  | false => simp [hm] at hphase
  | true =>
    rw [hm, if_pos rfl] at hphase
    exact (Option.some.inj hphase).symm

/-- What any cutting of a well-formed stream makes the parser do: a reference for each record, and the tail
stays. -/
theorem run_stream_delivers (s : DbnStream) (recycler : Option ℕ) (ds : List Delivery)
    (h : ds.flatMap Delivery.bytes = s.bytes) :
    (∃ batches : List (List RecordRef), (receiveAll D recycler ds).1.own.events = batches.map .data ∧
        List.Forall₂ (Delivers D s.version) (s.records.map Record.bytes) batches.flatten) ∧
      WF (receiveAll D recycler ds).2 ∧ Chain.bytes (receiveAll D recycler ds).2 = s.tail := by
  obtain ⟨phase, hfeed, hphase⟩ :=
    feed_stream s.metadata s.records s.tail (Or.inr s.version_le) s.unmarked
  obtain ⟨part, hpart, hne⟩ := s.tail_part
  have hdrain : drain (recordFramer (versionOf s.metadata)) s.tail = ⟨[], s.tail, none⟩ :=
    drain_more _ (lookRecord_part part hpart hne _)
  rw [hdrain, List.append_nil] at hfeed
  obtain ⟨hitems, hend⟩ := framed_eq ds
  rw [h, show feed _ _ _ s.bytes = _ from hfeed] at hitems hend
  have htracks := run_tracks D (newParser_tracks recycler) ds
  rw [show (feedAll _ _ _ (ds.map Delivery.bytes)).2 = _ from hend] at htracks
  have hsent := run_sent D (newParser_tracks recycler) (newParser_sent D recycler)
    (by rw [show (feedAll _ _ _ (ds.map Delivery.bytes)).2 = _ from hend])
  rw [List.nil_append, show (feedAll _ _ _ (ds.map Delivery.bytes)).1.flatten = _ from hitems] at hsent
  obtain ⟨⟨batches, hev, hall⟩, -⟩ := hsent
  refine ⟨⟨batches, hev, ?_⟩, htracks.wf, htracks.buffer⟩
  rcases hphase with hp | ⟨hrs, -⟩
  · rw [version_of_phase htracks hp] at hall
    exact hall
  · rw [hrs] at hall ⊢
    rw [List.forall₂_nil_left_iff.mp hall]
    exact .nil

/-- The same where the records are as long as they are read. -/
theorem run_stream (s : DbnStream) (hlong : ∀ r ∈ s.records, LongEnough D s.version r.bytes)
    (recycler : Option ℕ) (ds : List Delivery) (h : ds.flatMap Delivery.bytes = s.bytes) :
    (∃ batches : List (List RecordRef), (receiveAll D recycler ds).1.own.events = batches.map .data ∧
        batches.flatten.map RecordRef.data = (s.records.map fun r => expected D s.version r.bytes) ∧
        ∀ ref ∈ batches.flatten, ref.size = ref.data.length) ∧
      WF (receiveAll D recycler ds).2 ∧ Chain.bytes (receiveAll D recycler ds).2 = s.tail := by
  obtain ⟨⟨batches, hev, hall⟩, hend⟩ := run_stream_delivers D s recycler ds h
  exact ⟨⟨batches, hev, data_of_delivers D hlong hall, size_of_delivers D hall⟩, hend⟩

/-- **Split independence.**  However a well-formed stream is cut into calls and segments, the sink gets the
records of the stream, converted, in order and nothing else, each with its size; what is left in the chain is
the part of the stream that is no complete record; and a single call with the whole stream delivers the same. -/
theorem split_independent (s : DbnStream) (hlong : ∀ r ∈ s.records, LongEnough D s.version r.bytes)
    (recycler : Option ℕ) (ds : List Delivery) (h : ds.flatMap Delivery.bytes = s.bytes) :
    let e := receiveAll D recycler ds
    delivered e.1.own.events = s.records.map (fun r => expected D s.version r.bytes) ∧
      (∀ ev ∈ e.1.own.events, ∃ batch, ev = .data batch ∧ ∀ ref ∈ batch, ref.size = ref.data.length) ∧
      WF e.2 ∧ Chain.bytes e.2 = s.tail ∧
      ∀ whole : Delivery, whole.bytes = s.bytes →
        delivered (receive D (newParser recycler) whole).1.own.events = delivered e.1.own.events := by
  intro e
  obtain ⟨⟨batches, hev, hdata, hsize⟩, hwf, htail⟩ := run_stream D s hlong recycler _ h
  have hdel : delivered e.1.own.events = s.records.map fun r => expected D s.version r.bytes := by
    rw [show e.1.own.events = _ from hev, delivered_batches, hdata]
  refine ⟨hdel, ?_, hwf, htail, ?_⟩
  · intro ev hmem
    rw [show e.1.own.events = _ from hev] at hmem
    obtain ⟨batch, hbatch, rfl⟩ := List.mem_map.mp hmem
    exact ⟨batch, rfl, fun ref href => hsize ref (List.mem_flatten.mpr ⟨batch, hbatch, href⟩)⟩
  · intro whole hwhole
    obtain ⟨⟨batches', hev', hdata', -⟩, -⟩ := run_stream D s hlong recycler [whole]
      (by rw [List.flatMap_cons, List.flatMap_nil, List.append_nil, hwhole])
    rw [hdel, ← hdata', ← delivered_batches, ← hev']
    rfl

/-- A v1 stream: metadata with a body of four bytes, a statistics record, a record of a type that is not
converted, and five bytes of one more. -/
def statStream : DbnStream where
  metadata := some ⟨1, [1, 2, 3, 4], by decide⟩
  supported := by decide
  records := [⟨[16, 0x18] ++ List.replicate 62 7, by decide, by decide, by decide⟩,
    ⟨[5, 0] ++ List.replicate 18 9, by decide, by decide, by decide⟩]
  tail := [4, 0, 0, 0, 0]
  tail_part := ⟨⟨[4] ++ List.replicate 15 0, by decide, by decide, by decide⟩, by decide, by decide⟩
  unmarked := by decide

/-- Its first 6 bytes, the next 30 in two segments, then the rest. -/
def statCuts : List Delivery :=
  [⟨zeroed, [.ofBytes (statStream.bytes.take 6)]⟩,
    ⟨zeroed, [.ofBytes ((statStream.bytes.drop 6).take 13), .ofBytes ((statStream.bytes.drop 19).take 17)]⟩,
    ⟨zeroed, [.ofBytes (statStream.bytes.drop 36)]⟩]

instance (version : Byte) (rec : List Byte) : Decidable (LongEnough D version rec) :=
  inferInstanceAs (Decidable (_ → _))

theorem split_independent_stat :
    delivered (receiveAll databentoCpp none statCuts).1.own.events =
        statStream.records.map (fun r => expected databentoCpp statStream.version r.bytes) ∧
      Chain.bytes (receiveAll databentoCpp none statCuts).2 = statStream.tail :=
  have h := split_independent databentoCpp statStream (by decide +kernel) none statCuts
    (by decide +kernel)
  ⟨h.1, h.2.2.2.1⟩

end DbnPipe.Dbn
