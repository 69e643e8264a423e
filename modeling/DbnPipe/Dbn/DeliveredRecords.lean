import DbnPipe.Dbn.ParseErrors
import DbnPipe.Dbn.ConvertedRecords

/-!
# The records that reach the sink

Runs of `DbnParserComponent` on **arbitrary bytes**, cut in any way.

* `streamVersion`, `batched` — the version a stream says it is in; the references in the sink's batches;
* `run_delivered` — the references are made, one by one, for the records of the calls before a parse error;
* `WellFormed` — what a client can rely on about a reference and the record it was made for;
* `wellFormed_of_delivers` — every reference is well formed **where its conversion succeeds**;
* `delivered_wellFormed_iff` — all references of a run are, unless an instrument definition of a stream of
  version 0 is among them.
-/

namespace DbnPipe.Dbn

open Layout Framing Chain

/-! ### The references a run delivers -/

/-- The version that a stream's metadata states; 3 without metadata. -/
def streamVersion (stream : List Byte) : Byte :=
  match lookMetadata stream with
  | .item version _ => version
  | _ => 3

/-- The references in the batches given to the sink. -/
def batched (events : List SinkEvent) : List RecordRef :=
  events.flatMap fun
    | .data batch => batch
    | _ => []

theorem batched_append (es es' : List SinkEvent) : batched (es ++ es') = batched es ++ batched es' :=
  List.flatMap_append

theorem batched_batches (batches : List (List RecordRef)) :
    batched (batches.map .data) = batches.flatten := by
  induction batches with
  | nil => rfl
  | cons b bs ih =>
    rw [List.flatten_cons, ← ih]
    rfl

/-- The framing parser on a stream from its start. -/
theorem feed_start (x : List Byte) : feed metadataPreamble recordFramer .start x =
    match lookMetadata x with
    | .more => ([], ⟨none, x, none⟩)
    | .bad e => ([], ⟨none, x, some e⟩)
    | .item v n => enter recordFramer v (x.drop n) := by
  have hlook : metadataPreamble.look x = lookMetadata x := rfl
  cases hl : lookMetadata x <;> simp only [feed, Progress.start, hlook, hl, List.nil_append]

/-- The version the framing parser found is the stream's. -/
theorem streamVersion_of_phase {x : List Byte} {v : Byte}
    (h : (feed metadataPreamble recordFramer .start x).2.phase = some v) (y : List Byte) :
    streamVersion (x ++ y) = v := by
  rw [feed_start] at h
  cases hl : lookMetadata x with
  | more => simp [hl] at h
  | bad e => simp [hl] at h
  | item v' n =>
    have hv : v' = v := by simpa [hl, enter] using h
    have happ : lookMetadata (x ++ y) = lookMetadata x :=
      lookMetadata_stable.append (by rw [hl]; simp)
    rw [streamVersion, happ, hl]
    exact hv

/-- What the calls before an error took off is what all of them took off first. -/
theorem framed_prefix {before ds : List Delivery} (h : before <+: ds) :
    (framed before).1.flatten <+: (framed ds).1.flatten := by
  obtain ⟨later, rfl⟩ := h
  rw [framed, framed, List.map_append, feedAll_append, List.flatten_append]
  exact List.prefix_append _ _

variable (D : Databento)

/-- The version of the records sent is the stream's. -/
theorem sent_delivers {recycler : Option ℕ} {before ds : List Delivery} (h : before <+: ds)
    {refs : List RecordRef}
    (hs : List.Forall₂ (Delivers D (receiveAll D recycler before).1.own.dbnVersion)
      (framed before).1.flatten refs) :
    List.Forall₂ (Delivers D (streamVersion (ds.flatMap Delivery.bytes)))
      (framed before).1.flatten refs := by
  obtain ⟨later, rfl⟩ := h
  cases hitems : (framed before).1.flatten with
  | nil =>
    rw [hitems] at hs
    rw [List.forall₂_nil_left_iff.mp hs]
    exact .nil
  | cons rec recs =>
    obtain ⟨h1, h2⟩ := framed_eq before
    cases hp : (feed metadataPreamble recordFramer .start (before.flatMap Delivery.bytes)).2.phase with
    | none =>
      rw [h1, feed_items_of_none metadataPreamble recordFramer hp] at hitems
      exact absurd hitems (by simp)
    | some v =>
      have htracks := run_tracks D (newParser_tracks recycler) before
      rw [show (feedAll _ _ _ (before.map Delivery.bytes)).2 = _ from h2] at htracks
      rw [List.flatMap_append, streamVersion_of_phase hp, ← version_of_phase htracks hp, ← hitems]
      exact hs

/-- **What a run delivers.**  The longest part of the run that meets no error, and one reference for each
record it takes off. -/
theorem run_delivered (recycler : Option ℕ) (ds : List Delivery) :
    ∃ ok, ok <+: ds ∧ (framed ok).2.error = none ∧
      (∀ before, before <+: ds → (framed before).2.error = none → before <+: ok) ∧
      List.Forall₂ (Delivers D (streamVersion (ds.flatMap Delivery.bytes))) (framed ok).1.flatten
        (batched (receiveAll D recycler ds).1.own.events) := by
  cases he : (framed ds).2.error with
  | none =>
    refine ⟨ds, List.prefix_rfl, he, fun _ h _ => h, ?_⟩
    obtain ⟨⟨batches, hev, hall⟩, -⟩ :=
      run_sent D (newParser_tracks recycler) (newParser_sent D recycler) he
    rw [show (receiveAll D recycler ds).1.own.events = _ from hev, batched_batches]
    exact sent_delivers D List.prefix_rfl hall
  | some msg =>
    obtain ⟨ok, d, later, rfl, h1, h2, ⟨⟨batches, hev, hall⟩, -⟩, h4⟩ :=
      run_error D (newParser_tracks recycler) (newParser_sent D recycler) rfl he
    refine ⟨ok, List.prefix_append _ _, h1, ?_, ?_⟩
    · intro before hbefore herr
      have hokd : ok ++ [d] <+: ok ++ d :: later := ⟨later, by rw [List.append_assoc]; rfl⟩
      rcases List.prefix_or_prefix_of_prefix hbefore hokd with hp | ⟨more, rfl⟩
      · rcases List.prefix_concat_iff.mp hp with rfl | hp
        · exact absurd herr h2
        · exact hp
      · -- an error that has been met stays
        rw [framed, List.map_append, feedAll_append] at herr
        exact absurd (feedAll_error metadataPreamble recordFramer herr) h2
    · rw [show (receiveAll D recycler (ok ++ d :: later)).1.own.events = _ from h4, batched_append,
        show (Runs.run (receive D) (newParser recycler) ok).1.own.events = _ from hev, batched_batches]
      show List.Forall₂ _ _ (batches.flatten ++ [])
      rw [List.append_nil]
      exact sent_delivers D (List.prefix_append _ _) hall

/-! ### Records taken off a stream -/

/-- A record as the parser takes it off: as long as it states, at least a header long, of a supported
version. -/
structure Taken (version : Byte) (rec : List Byte) : Prop where
  stated : statedSize rec = rec.length
  header_le : headerSize ≤ rec.length
  supported : ¬3 < version

theorem lookRecord_taken {version : Byte} {buf rec : List Byte} {n : ℕ}
    (h : lookRecord version buf = .item rec n) : Taken version rec := by
  obtain ⟨hrec, hn, h16, hle⟩ := lookRecord_item h
  have hlen : rec.length = n := by rw [hrec, List.length_take]; omega
  refine ⟨?_, by omega, ?_⟩
  · rw [hlen, hrec, statedSize_take (by rw [headerSize] at h16; omega), hn]
  · intro hv
    simp only [lookRecord, if_pos hv] at h
    split at h
    · cases h
    split at h
    · cases h
    split at h
    · cases h
    split at h
    · cases h
    · cases h

theorem drain_taken {version : Byte} {buf rec : List Byte}
    (h : rec ∈ (drain (recordFramer version) buf).items) : Taken version rec := by
  induction buf using drain_induction (recordFramer version) with
  | more buf hm => simp [drain_more _ hm] at h
  | bad buf e hb => simp [drain_bad _ hb] at h
  | item buf b n hi ih =>
    rw [drain_item _ hi] at h
    rcases List.mem_cons.mp h with rfl | h
    · exact lookRecord_taken hi
    · exact ih h

/-- Every record of a stream is taken off as one of the stream's version. -/
theorem framed_taken {ds : List Delivery} {rec : List Byte} (h : rec ∈ (framed ds).1.flatten) :
    Taken (streamVersion (ds.flatMap Delivery.bytes)) rec := by
  rw [(framed_eq ds).1, feed_start] at h
  cases hl : lookMetadata (ds.flatMap Delivery.bytes) with
  | more => simp [hl] at h
  | bad e => simp [hl] at h
  | item v n =>
    simp only [hl, enter] at h
    rw [streamVersion, hl]
    exact drain_taken h

/-! ### Where the references point -/

/-- `data` is 8-byte aligned; a scratch allocation always is. -/
def Keepalive.Aligned : Keepalive → Prop
  | .segment s pos => (s.addr + pos) % 8 = 0
  | .scratch => True

theorem srcPtr_aligned {chain : Chain} {len : ℕ} {s : Segment} {pos : ℕ}
    (h : srcPtr chain len = some (s, pos)) : (Keepalive.segment s pos).Aligned := by
  rw [srcPtr] at h
  split at h
  · split at h
    · split at h
      · rename_i ha
        cases h
        exact eq_of_beq ha
      · cases h
    · cases h
  · cases h

theorem makeRef_aligned (version : Byte) (temp : Window Byte) (chain : Chain) (size : ℕ) :
    (makeRef D version temp chain size).1.keepalive.Aligned := by
  simp only [makeRef]
  split
  · split
    · trivial
    · trivial
  · split
    · rename_i s pos hs
      exact srcPtr_aligned hs
    · trivial

/-- A round that yields a record has made a reference to it. -/
theorem parseFront_record {version : Byte} {temp temp' : Window Byte} {chain : Chain} {ref : RecordRef}
    {size : ℕ} (h : parseFront D version temp chain = .record ref temp' size) :
    makeRef D version temp chain size = (ref, temp') := by
  simp only [parseFront] at h
  split at h
  · cases h
  split at h
  · cases h
  split at h
  · cases h
  split at h
  · cases h
  · cases h
    rfl

/-- The loop adds aligned references to its batch. -/
theorem parseLoop_aligned (version : Byte) (fuel : ℕ) (temp : Window Byte) (chain : Chain)
    {batch : List RecordRef} (h : ∀ ref ∈ batch, ref.keepalive.Aligned) :
    ∀ ref ∈ (parseLoop D version fuel temp chain batch).batch, ref.keepalive.Aligned := by
  induction fuel generalizing temp chain batch with
  | zero => exact h
  | succ fuel ih =>
    rw [parseLoop]
    split
    · exact h
    · cases hfront : parseFront D version temp chain with
      | wait => exact h
      | fail msg => exact h
      | record ref temp' size =>
        refine ih temp' _ fun ref' hmem => ?_
        rcases List.mem_append.mp hmem with hmem | hmem
        · exact h ref' hmem
        · have hmake := makeRef_aligned D version temp chain size
          rw [parseFront_record D hfront] at hmake
          rw [List.mem_singleton.mp hmem]
          exact hmake

theorem batched_reportTerminalError (msg : String) (c : Component Parser) :
    batched (reportTerminalError msg c).own.events = batched c.own.events := by
  rw [reportTerminalError]
  split
  · rfl
  · exact (batched_append _ _).trans (List.append_nil _)

theorem batched_skipMetadata (c : Component Parser) (chain : Chain) :
    batched (skipMetadataIfNeeded c chain).1.own.events = batched c.own.events := by
  rw [skipMetadataIfNeeded]
  split
  · rfl
  split
  · rfl
  simp only
  split
  · rfl
  split
  · exact batched_reportTerminalError _ c
  split
  · rfl
  · rfl

/-- Every reference given to the sink is aligned. -/
def AllAligned (s : Component Parser × Chain) : Prop :=
  ∀ ref ∈ batched s.1.own.events, ref.keepalive.Aligned

theorem parseRecords_aligned (temp : Window Byte) {c : Component Parser} {chain : Chain}
    (h : AllAligned (c, chain)) : AllAligned (parseRecords D temp c chain) := by
  rw [parseRecords]
  split
  · rw [AllAligned, batched_reportTerminalError]
    exact h
  · split
    · exact h
    · intro ref hmem
      rw [tell, batched_append] at hmem
      rcases List.mem_append.mp hmem with hmem | hmem
      · exact h ref hmem
      · rw [show batched [SinkEvent.data _] = _ from List.append_nil _] at hmem
        exact parseLoop_aligned D _ _ _ _ (fun _ h => absurd h List.not_mem_nil) ref hmem

theorem receive_aligned (s : Component Parser × Chain) (d : Delivery) (h : AllAligned s) :
    AllAligned (receive D s d) := by
  rw [receive, onData]
  split
  · exact h
  · simp only
    split
    · rw [AllAligned, batched_skipMetadata]
      exact h
    · refine parseRecords_aligned D d.temp ?_
      rw [AllAligned, batched_skipMetadata]
      exact h

theorem receiveAll_aligned (recycler : Option ℕ) (ds : List Delivery) :
    AllAligned (receiveAll D recycler ds) :=
  Runs.run_invariant (receive_aligned D) (fun _ hmem => absurd hmem List.not_mem_nil) ds

/-! ### Well-formed references -/

/-- `hd.publisher_id` of a record given by its bytes. -/
def publisherId (rec : List Byte) : List Byte := (rec.drop 2).take 2

/-- `hd.instrument_id`. -/
def instrumentId (rec : List Byte) : List Byte := (rec.drop 4).take 4

/-- `hd.ts_event`. -/
def tsEvent (rec : List Byte) : List Byte := (rec.drop 8).take 8

/-- What a client relies on about the reference `ref` made for the record `rec`. -/
structure WellFormed (version : Byte) (rec : List Byte) (ref : RecordRef) : Prop where
  data : ref.data.length = ref.size
  size : ref.size = statedSize ref.data
  header_le : headerSize ≤ ref.size
  rtype : ref.data.getD 1 0 = rec.getD 1 0
  publisher_id : publisherId ref.data = publisherId rec
  instrument_id : instrumentId ref.data = instrumentId rec
  ts_event : tsEvent ref.data = tsEvent rec
  aligned : ref.keepalive.Aligned
  converted : 0 < v3SizeOf D version rec → ∀ w, Starts w rec →
    (convertRecordToV3 D version (rtypeOf w) w (v3SizeOf D version rec)).1 = true

/-- The header of a record in memory. -/
theorem header_of_starts {w : Window Byte} {rec : List Byte} (h : Starts w rec)
    (h16 : headerSize ≤ rec.length) : rec.take headerSize = slice w 0 headerSize := by
  have hlen : (rec.take headerSize).length = headerSize := by rw [List.length_take]; omega
  have hs : Starts w (rec.take headerSize) := by
    intro i hi
    rw [hlen] at hi
    rw [List.getElem?_take_of_lt hi]
    exact h i (by omega)
  rw [← hs.slice, hlen]

/-- Records with one header but for the length byte agree in its fields. -/
theorem fields_of_header {a b : Byte} {l rec rec' : List Byte} (h : rec.take headerSize = a :: l)
    (h' : rec'.take headerSize = b :: l) :
    rec.getD 1 0 = rec'.getD 1 0 ∧ publisherId rec = publisherId rec' ∧
      instrumentId rec = instrumentId rec' ∧ tsEvent rec = tsEvent rec' := by
  have field : ∀ (r : List Byte) (c : Byte), r.take headerSize = c :: l → ∀ off len,
      off + 1 + len ≤ headerSize → (r.drop (off + 1)).take len = (l.drop off).take len := by
    intro r c hr off len hle
    have htake : (r.drop (off + 1)).take len = ((r.take headerSize).drop (off + 1)).take len := by
      rw [List.drop_take, List.take_take, Nat.min_eq_left (by omega)]
    rw [htake, hr, List.drop_succ_cons]
  have get : ∀ (r : List Byte) (c : Byte), r.take headerSize = c :: l → r.getD 1 0 = l.getD 0 0 := by
    intro r c hr
    rw [List.getD_eq_getElem?_getD, ← List.getElem?_take_of_lt (show 1 < headerSize by decide), hr,
      List.getD_eq_getElem?_getD, List.getElem?_cons_succ]
  exact ⟨(get rec a h).trans (get rec' b h').symm,
    (field rec a h 1 2 (by decide)).trans (field rec' b h' 1 2 (by decide)).symm,
    (field rec a h 3 4 (by decide)).trans (field rec' b h' 3 4 (by decide)).symm,
    (field rec a h 7 8 (by decide)).trans (field rec' b h' 7 8 (by decide)).symm⟩

theorem v3SizeOf_pos {version : Byte} {rec : List Byte} (h : 0 < v3SizeOf D version rec) :
    version ≠ 3 ∧ v3SizeOf D version rec = getV3SizeForConversion D (rec.getD 1 0) := by
  rw [v3SizeOf, conversionSize] at h ⊢
  split at h
  · exact absurd h (Nat.lt_irrefl 0)
  · rename_i h3
    exact ⟨h3, if_neg h3⟩

theorem rtypeOf_of_starts {w : Window Byte} {rec : List Byte} (h : Starts w rec)
    (h16 : headerSize ≤ rec.length) : rtypeOf w = rec.getD 1 0 := by
  rw [headerSize] at h16
  rw [List.getD_eq_getElem?_getD, h 1 (by omega)]
  rfl

/-- The versions that records are converted from. -/
theorem version_cases {version : Byte} (h : ¬3 < version) (h3 : version ≠ 3) :
    version = 0 ∨ version = 1 ∨ version = 2 := by
  rw [UInt8.lt_iff_toNat_lt, show (3 : Byte).toNat = 3 from rfl] at h
  rw [ne_eq, ← UInt8.toNat_inj, show (3 : Byte).toNat = 3 from rfl] at h3
  simp only [← UInt8.toNat_inj, show (0 : Byte).toNat = 0 from rfl, show (1 : Byte).toNat = 1 from rfl,
    show (2 : Byte).toNat = 2 from rfl]
  omega

/-- **A conversion that succeeds yields a well-formed reference**, and so does a record left as it is. -/
theorem wellFormed_of_delivers {D : Databento} (hD : HeaderFirst D) {version : Byte} {rec : List Byte}
    {ref : RecordRef} (hd : Delivers D version rec ref) (ht : Taken version rec)
    (ha : ref.keepalive.Aligned) (hv : version = 0 → rec.getD 1 0 ≠ D.instrumentDef) :
    WellFormed D version rec ref := by
  by_cases h0 : v3SizeOf D version rec = 0
  · have hdata := hd.plain h0
    have hsize : ref.size = rec.length := by rw [hd.size, hdata]
    exact ⟨hd.size.symm, by rw [hsize, hdata, ht.stated], by rw [hsize]; exact ht.header_le,
      by rw [hdata], by rw [hdata], by rw [hdata], by rw [hdata], ha,
      fun h => absurd h (by rw [h0]; exact Nat.lt_irrefl 0)⟩
  · have hpos := Nat.pos_of_ne_zero h0
    obtain ⟨h3, hsize⟩ := v3SizeOf_pos D hpos
    rw [hsize] at hpos
    obtain ⟨hle, hstated⟩ := v3Size_bounds D hpos
    have hver : rec.getD 1 0 = D.instrumentDef → version = 1 ∨ version = 2 := fun hr =>
      (version_cases ht.supported h3).resolve_left fun h => hv h hr
    have hconv : ∀ w, Starts w rec → ∃ dst,
        convertRecordToV3 D version (rtypeOf w) w (v3SizeOf D version rec) = (true, dst) ∧
          HasHeader (v3SizeOf D version rec) (rec.getD 1 0) w dst := by
      intro w hw
      obtain ⟨dst, hdst, hhead⟩ := converter_header hD w hpos hver
      rw [rtypeOf_of_starts hw ht.header_le, hsize, convertRecordToV3, hdst]
      exact ⟨dst, rfl, hhead⟩
    obtain ⟨w, hw, hdata⟩ := hd.converted (Nat.pos_of_ne_zero h0)
    obtain ⟨dst, hdst, hhead⟩ := hconv w hw
    rw [convertedFrom, hdst] at hdata
    -- the two headers, as lists
    have hrec : rec.take headerSize = w 0 :: ([w 1] ++ slice w 2 2 ++ slice w 4 4 ++ slice w 8 8) := by
      rw [header_of_starts hw ht.header_le]
      rfl
    have hfront : ref.data.take headerSize = UInt8.ofNat (v3SizeOf D version rec / 4) ::
        ([rec.getD 1 0] ++ slice w 2 2 ++ slice w 4 4 ++ slice w 8 8) := by
      have hs : Starts dst ref.data := by
        intro i hi
        rw [hdata, length_slice] at hi
        rw [hdata, getElem?_slice dst 0 hi, Nat.zero_add]
      rw [header_of_starts hs (by rw [hdata, length_slice, hsize]; exact hle), slice_header hhead]
      rfl
    rw [← rtypeOf_of_starts hw ht.header_le] at hfront
    obtain ⟨f1, f2, f3, f4⟩ := fields_of_header hfront hrec
    have hlen : ref.size = v3SizeOf D version rec := by rw [hd.size, hdata, length_slice]
    have hfirst : statedSize ref.data = v3SizeOf D version rec := by
      rw [← statedSize_take (show 0 < headerSize by decide), hfront, statedSize, List.headD_cons, hsize,
        hstated]
    refine ⟨hd.size.symm, by rw [hlen, hfirst], by rw [hlen, hsize]; exact hle, f1, f2, f3, f4, ha, ?_⟩
    intro _ w' hw'
    obtain ⟨dst', hdst', -⟩ := hconv w' hw'
    rw [hdst']

/-- **When every delivered record is well formed.**  Each reference in a batch is well formed for the record
of the stream that stands at its position, if and only if the metadata does not say version 0 or the calls
before a parse error bring no instrument definition. -/
theorem delivered_wellFormed_iff {D : Databento} (hD : HeaderFirst D) (recycler : Option ℕ)
    (ds : List Delivery) :
    (∀ (i : ℕ) (ref : RecordRef), (batched (receiveAll D recycler ds).1.own.events)[i]? = some ref →
        ∃ rec, (framed ds).1.flatten[i]? = some rec ∧
          WellFormed D (streamVersion (ds.flatMap Delivery.bytes)) rec ref) ↔
      (streamVersion (ds.flatMap Delivery.bytes) = 0 →
        ∀ before, before <+: ds → (framed before).2.error = none →
          ∀ rec ∈ (framed before).1.flatten, rec.getD 1 0 ≠ D.instrumentDef) := by
  obtain ⟨ok, hok, herr, hlongest, hall⟩ := run_delivered D recycler ds
  have hitems : ∀ (i : ℕ) (rec : List Byte),
      (framed ok).1.flatten[i]? = some rec → (framed ds).1.flatten[i]? = some rec := by
    intro i rec hi
    obtain ⟨t, ht⟩ := framed_prefix hok
    obtain ⟨hlt, -⟩ := List.getElem?_eq_some_iff.mp hi
    rw [← ht, List.getElem?_append_left hlt, hi]
  have hlen := hall.length_eq
  constructor
  · intro hwf hv before hbefore hnone rec hmem hr
    obtain ⟨t, ht⟩ := framed_prefix (hlongest before hbefore hnone)
    have hmem' : rec ∈ (framed ok).1.flatten := by
      rw [← ht]
      exact List.mem_append_left t hmem
    obtain ⟨i, hi, hget⟩ := List.mem_iff_getElem.mp hmem'
    have hrec : (framed ok).1.flatten[i]? = some rec := by rw [List.getElem?_eq_getElem hi, hget]
    obtain ⟨rec', hrec', h⟩ := hwf i _ (List.getElem?_eq_getElem (hlen ▸ hi))
    rw [hitems i rec hrec, Option.some.injEq] at hrec'
    subst hrec'
    have h16 := (framed_taken (List.mem_of_getElem? (hitems i rec hrec))).header_le
    have hpos : 0 < v3SizeOf D (streamVersion (ds.flatMap Delivery.bytes)) rec := by
      rw [v3SizeOf, hv, conversionSize, if_neg (by decide), getV3SizeForConversion, if_pos hr,
        D.instrumentDef_size]
      decide
    have htrue := h.converted hpos _ (starts_overwrite zeroed rec)
    rw [rtypeOf_of_starts (starts_overwrite zeroed rec) h16, hr, hv, convertRecordToV3,
      converter_none D (by decide) (by decide)] at htrue
    exact absurd htrue (by simp)
  · intro hcond i ref href
    obtain ⟨hlt, hget⟩ := List.getElem?_eq_some_iff.mp href
    have hi : i < (framed ok).1.flatten.length := hlen ▸ hlt
    have hrec := List.getElem?_eq_getElem hi
    refine ⟨_, hitems i _ hrec, ?_⟩
    have hd := hall.get hi hlt
    rw [List.get_eq_getElem, List.get_eq_getElem, hget] at hd
    refine wellFormed_of_delivers hD hd (framed_taken (List.mem_of_getElem? (hitems i _ hrec))) ?_ ?_
    · exact receiveAll_aligned D recycler ds ref (List.mem_of_getElem? href)
    · exact fun hv => hcond hv ok hok herr _ (List.getElem_mem hi)

/-- The statistics record of the stream of version 1 arrives well formed. -/
theorem delivered_wellFormed_stat :
    ∃ ref, (batched (receiveAll databentoCpp none statCuts).1.own.events)[0]? = some ref ∧
      ∃ rec, (framed statCuts).1.flatten[0]? = some rec ∧
        WellFormed databentoCpp (streamVersion (statCuts.flatMap Delivery.bytes)) rec ref := by
  have hsome : ((batched (receiveAll databentoCpp none statCuts).1.own.events)[0]?).isSome = true := by decide +kernel
  obtain ⟨ref, href⟩ := Option.isSome_iff_exists.mp hsome
  have hall := (delivered_wellFormed_iff headerFirst_cpp none statCuts).mpr fun h => absurd h (by decide +kernel)
  exact ⟨ref, href, hall 0 ref href⟩

/-- Metadata that says version 0, and an instrument definition of 360 bytes. -/
def versionZero : List Delivery :=
  [⟨zeroed,
    [.ofBytes (magic ++ [0, 0, 0, 0, 0] ++ ([90, 0x13] ++ List.replicate 358 7)) (by decide +kernel)]⟩]

/-- **An instrument definition of version 0 is delivered as zeros**: the conversion has failed, and the 520
bytes state the length 0. -/
theorem not_delivered_wellFormed :
    ¬∀ (i : ℕ) (ref : RecordRef),
      (batched (receiveAll databentoCpp none versionZero).1.own.events)[i]? = some ref →
        ∃ rec, (framed versionZero).1.flatten[i]? = some rec ∧
          WellFormed databentoCpp (streamVersion (versionZero.flatMap Delivery.bytes)) rec ref := by
  intro h
  have hone : (batched (receiveAll databentoCpp none versionZero).1.own.events).map
      (fun ref => (ref.size, statedSize ref.data)) = [(520, 0)] := by decide +kernel
  cases hb : batched (receiveAll databentoCpp none versionZero).1.own.events with
  | nil => simp [hb] at hone
  | cons ref refs =>
    rw [hb, List.map_cons, List.cons.injEq, Prod.mk.injEq] at hone
    obtain ⟨rec, -, hwf⟩ := h 0 ref (by rw [hb]; rfl)
    have hsize := hwf.size
    rw [hone.1.1, hone.1.2] at hsize
    exact absurd hsize (by decide)

end DbnPipe.Dbn
