import DbnPipe.Dbn.SplitIndependence

/-!
# Records before a parse error

The record loop collects a batch and delivers it when the loop ends; an error returns from inside the loop.

* `run_error` — a run that meets an error: everything the calls **before** the failing one took off has
  been delivered, what the failing call took off is lost;
* `MalformedStream` — records, then a malformed one;
* `framedAt_front`, `feed_inside`, `feed_after` — the framing parser on the prefixes of such a stream;
* `all_records_sent_iff` — the good records all reach the sink **exactly when** a call boundary falls
  between the last of them and the point where the malformed record is recognised.
-/

namespace DbnPipe.Dbn

open Layout Framing Chain

variable (D : Databento)

/-- **A run that meets an error.**  The calls before the failing one have sent their records, and the
failing one sends the error only. -/
theorem run_error {s : Component Parser × Chain} {p : Progress Byte Byte String}
    {items : List (List Byte)} (h : Tracks s.1 s.2 p) (hs : Sent D s.1 items) (hp : p.error = none)
    {ds : List Delivery} {msg : String}
    (hq : (feedAll metadataPreamble recordFramer p (ds.map Delivery.bytes)).2.error = some msg) :
    ∃ ok d later, ds = ok ++ d :: later ∧
      (feedAll metadataPreamble recordFramer p (ok.map Delivery.bytes)).2.error = none ∧
      (feedAll metadataPreamble recordFramer p ((ok ++ [d]).map Delivery.bytes)).2.error ≠ none ∧
      Sent D (Runs.run (receive D) s ok).1
        (items ++ (feedAll metadataPreamble recordFramer p (ok.map Delivery.bytes)).1.flatten) ∧
      (Runs.run (receive D) s ds).1.own.events = (Runs.run (receive D) s ok).1.own.events ++
        [.error { code := .parseError, message := msg }] := by
  induction ds generalizing s p items with
  | nil =>
    rw [show (feedAll _ _ p (([] : List Delivery).map Delivery.bytes)).2 = p from rfl, hp] at hq
    exact absurd hq (by simp)
  | cons d ds ih =>
    obtain ⟨h1, -, h3, h4⟩ := receive_spec D h d
    cases he : (feed metadataPreamble recordFramer p d.bytes).2.error with
    | none =>
      obtain ⟨ok, d', later, rfl, i1, i2, i3, i4⟩ := ih h1 (h3 he items hs) he hq
      refine ⟨d :: ok, d', later, rfl, i1, i2, ?_, i4⟩
      rw [List.append_assoc] at i3
      exact i3
    | some msg' =>
      have hmsg : msg' = msg := by
        have hne : (feed metadataPreamble recordFramer p d.bytes).2.error ≠ none := by simp [he]
        have hall := feedAll_of_error metadataPreamble recordFramer hne (ds.map Delivery.bytes)
        rw [show (feedAll _ _ p ((d :: ds).map Delivery.bytes)).2.error =
          (feed metadataPreamble recordFramer p d.bytes).2.error from hall, he] at hq
        exact Option.some.inj hq
      refine ⟨[], d, ds, rfl, hp, ?_, ?_, ?_⟩
      · show (feed metadataPreamble recordFramer p d.bytes).2.error ≠ none
        rw [he]
        exact Option.some_ne_none msg'
      · show Sent D s.1 (items ++ [])
        rw [List.append_nil]
        exact hs
      · rw [Runs.run_cons, run_after_error D h1 (by simp [he]), h4 hp msg' he, hmsg]
        rfl

/-! ### Streams with a malformed record -/

/-- Optional metadata, well-formed records and then a malformed one: a header that states less than its own
size, or any complete record where the metadata has a version above 3. -/
structure MalformedStream where
  metadata : Option Metadata
  records : List Record
  bad : List Byte
  rest : List Byte
  malformed : bad.length = headerSize ∧ statedSize bad < headerSize ∨
    3 < versionOf metadata ∧ headerSize ≤ bad.length ∧ statedSize bad = bad.length
  first : records = [] ∨ ¬3 < versionOf metadata
  unmarked : metadata = none → ¬magic <+: records.flatMap Record.bytes ++ (bad ++ rest)

namespace MalformedStream

variable (s : MalformedStream)

/-- The version its records are in. -/
def version : Byte := versionOf s.metadata

/-- The metadata and the good records. -/
def front : List Byte := preamble s.metadata ++ s.records.flatMap Record.bytes

/-- The stream as bytes. -/
def bytes : List Byte := s.front ++ (s.bad ++ s.rest)

theorem bad_length : headerSize ≤ s.bad.length := by
  rcases s.malformed with h | h
  · exact Nat.le_of_eq h.1.symm
  · exact h.2.1

/-- The malformed record is an error once it is complete. -/
theorem look_bad (x : List Byte) : ∃ msg, lookRecord s.version (s.bad ++ x) = .bad msg := by
  have h16 := s.bad_length
  have hst := statedSize_append h16 x
  have hx : ¬(s.bad ++ x).length < headerSize := by rw [List.length_append]; omega
  rcases s.malformed with ⟨-, h⟩ | ⟨hv, -, h⟩
  · exact ⟨_, by rw [lookRecord, if_neg hx, hst, if_pos h]⟩
  · have hmax := statedSize_le s.bad
    have hle : ¬kMaxRecordSize < statedSize s.bad := by rw [kMaxRecordSize]; omega
    exact ⟨_, by rw [lookRecord, if_neg hx, hst, if_neg (by omega), if_neg hle,
      if_neg (by rw [List.length_append]; omega), if_pos (show 3 < s.version from hv)]⟩

/-- Before that it is waited for. -/
theorem look_part {t y : List Byte} (h : s.bad = t ++ y) (hy : y ≠ []) :
    lookRecord s.version t = .more := by
  by_cases h16 : t.length < headerSize
  · rw [lookRecord, if_pos h16]
  · have hlen : t.length < s.bad.length := by
      rw [h, List.length_append]
      have := List.length_pos_iff.mpr hy
      omega
    have hst : statedSize s.bad = statedSize t := by
      rw [h, statedSize_append (Nat.le_of_not_lt h16)]
    rcases s.malformed with ⟨hb, -⟩ | ⟨-, hb, hs⟩
    · omega
    · have hmax := statedSize_le s.bad
      rw [lookRecord, if_neg h16, ← hst, if_neg (by omega), if_neg (by rw [kMaxRecordSize]; omega),
        if_pos (by omega)]

/-! ### The framing parser on the prefixes of the stream -/

/-- The framing parser after the bytes `x`. -/
def framedAt (x : List Byte) : List (List Byte) × Progress Byte Byte String :=
  feed metadataPreamble recordFramer .start x

theorem framedAt_append (x y : List Byte) :
    framedAt (x ++ y) = ((framedAt x).1 ++ (feed metadataPreamble recordFramer (framedAt x).2 y).1,
      (feed metadataPreamble recordFramer (framedAt x).2 y).2) :=
  feed_append metadataPreamble recordFramer .start x y

/-- After the good records and what of `tail` has arrived. -/
theorem framedAt_front (tail more : List Byte) (h : tail ++ more = s.bad ++ s.rest) :
    ∃ phase, framedAt (s.front ++ tail) =
        (s.records.map Record.bytes ++ (drain (recordFramer s.version) tail).items,
          ⟨phase, (drain (recordFramer s.version) tail).rest,
            (drain (recordFramer s.version) tail).error⟩) ∧
      (phase = some s.version ∨ s.records = [] ∧ tail.length < dbnHeaderSize) := by
  have hraw : s.metadata = none → ¬magic <+: s.records.flatMap Record.bytes ++ tail := by
    intro hm hp
    refine s.unmarked hm (hp.trans ?_)
    rw [← h, ← List.append_assoc]
    exact List.prefix_append _ _
  obtain ⟨phase, hfeed, hphase⟩ := feed_stream s.metadata s.records tail s.first hraw
  refine ⟨phase, ?_, ?_⟩
  · rw [front, List.append_assoc]
    exact hfeed
  · rcases hphase with hp | ⟨h1, h2, -⟩
    · exact Or.inl hp
    · exact Or.inr ⟨h1, h2⟩

/-- While the malformed record is incomplete the good ones are there and no error is. -/
theorem feed_inside {t y : List Byte} (h : s.bad = t ++ y) (hy : y ≠ []) :
    ∃ phase, framedAt (s.front ++ t) = (s.records.map Record.bytes, ⟨phase, t, none⟩) ∧
      (phase = some s.version ∨ s.records = []) := by
  obtain ⟨phase, hf, hp⟩ := s.framedAt_front t (y ++ s.rest)
    (by rw [h, List.append_assoc])
  rw [drain_more (recordFramer s.version) (s.look_part h hy), List.append_nil] at hf
  exact ⟨phase, hf, hp.imp_right And.left⟩

/-- Once it is complete there is an error, and nothing but the good records has been taken off. -/
theorem feed_after (z more : List Byte) (h : z ++ more = s.rest) :
    ∃ msg, (framedAt (s.front ++ (s.bad ++ z))).1 = s.records.map Record.bytes ∧
      (framedAt (s.front ++ (s.bad ++ z))).2.error = some msg := by
  obtain ⟨phase, hf, -⟩ := s.framedAt_front (s.bad ++ z) more
    (by rw [List.append_assoc, h])
  obtain ⟨msg, hmsg⟩ := s.look_bad z
  rw [drain_bad (recordFramer s.version) hmsg, List.append_nil] at hf
  exact ⟨msg, by rw [hf], by rw [hf]⟩

/-- The good records alone. -/
theorem framedAt_records : ∃ phase, framedAt s.front =
    (s.records.map Record.bytes, ⟨phase, [], none⟩) := by
  have hne : s.bad ≠ [] := by
    intro hb
    have h16 := s.bad_length
    rw [hb, headerSize] at h16
    simp at h16
  obtain ⟨phase, hf, -⟩ := s.feed_inside (t := []) (y := s.bad) rfl hne
  rw [List.append_nil] at hf
  exact ⟨phase, hf⟩

/-- **Where the error is**: at the end of the malformed record. -/
theorem error_none_iff {x y : List Byte} (h : x ++ y = s.bytes) :
    (framedAt x).2.error = none ↔ x.length < s.front.length + s.bad.length := by
  rcases List.append_eq_append_iff.mp h with ⟨a, hfront, hy⟩ | ⟨c, hx, hc⟩
  · have hlen := congrArg List.length hfront
    rw [List.length_append] at hlen
    have h16 := s.bad_length
    rw [headerSize] at h16
    obtain ⟨phase, hf⟩ := s.framedAt_records
    refine ⟨fun _ => by omega, fun _ => ?_⟩
    by_contra hne
    rw [hfront, framedAt_append, feed_error _ _ hne] at hf
    exact hne (congrArg (fun r => r.2.error) hf)
  · rcases List.append_eq_append_iff.mp hc.symm with ⟨z, hbad, hrest⟩ | ⟨z, hbad, hrest⟩
    · by_cases hz : z = []
      · subst hz
        rw [List.append_nil] at hbad
        obtain ⟨msg, -, herr⟩ := s.feed_after [] s.rest rfl
        rw [List.append_nil, hbad, ← hx] at herr
        rw [herr, hx, hbad, List.length_append]
        exact ⟨fun h => absurd h (by simp), fun h => absurd h (Nat.lt_irrefl _)⟩
      · obtain ⟨phase, hf, -⟩ := s.feed_inside hbad hz
        have hpos := List.length_pos_iff.mpr hz
        rw [hx, hf, hbad]
        simp only [List.length_append, true_iff]
        omega
    · obtain ⟨msg, -, herr⟩ := s.feed_after z y hrest.symm
      rw [hx, hbad, herr]
      simp only [List.length_append]
      exact ⟨fun h => absurd h (by simp), fun h => by omega⟩

/-- What has been taken off a prefix are the first of the good records. -/
theorem items_prefix {x y : List Byte} (h : x ++ y = s.bytes) :
    (framedAt x).1 <+: s.records.map Record.bytes := by
  obtain ⟨msg, hall, -⟩ := s.feed_after s.rest [] (List.append_nil _)
  rw [show s.front ++ (s.bad ++ s.rest) = x ++ y from h.symm, framedAt_append] at hall
  exact ⟨_, hall⟩

/-- From the end of the last good record on, all of them have been taken off. -/
theorem items_of_le {x y : List Byte} (h : x ++ y = s.bytes) (hle : s.front.length ≤ x.length)
    (hlt : x.length < s.front.length + s.bad.length) :
    (framedAt x).1 = s.records.map Record.bytes ∧
      ((framedAt x).2.phase = some s.version ∨ s.records = []) := by
  have hx : x = s.front ++ (s.bad ++ s.rest).take (x.length - s.front.length) := by
    have htake := congrArg (List.take x.length) h
    rw [List.take_left, bytes, List.take_append, List.take_of_length_le hle] at htake
    exact htake
  have hbad : s.bad = s.bad.take (x.length - s.front.length) ++
      s.bad.drop (x.length - s.front.length) := (List.take_append_drop _ _).symm
  have hne : s.bad.drop (x.length - s.front.length) ≠ [] := by
    intro hnil
    have hlen := congrArg List.length hnil
    rw [List.length_drop, List.length_nil] at hlen
    omega
  obtain ⟨phase, hf, hp⟩ := s.feed_inside hbad hne
  rw [List.take_append_of_le_length (by omega)] at hx
  rw [hx, hf]
  exact ⟨rfl, hp⟩

/-- Before that, some are missing. -/
theorem items_of_lt {x y : List Byte} (h : x ++ y = s.bytes) (hlt : x.length < s.front.length)
    (hne : s.records ≠ []) : (framedAt x).1.length < s.records.length := by
  obtain ⟨t, ht⟩ : ∃ t, x ++ t = s.front := by
    have hp : x <+: s.front := List.prefix_of_prefix_length_le ⟨y, h⟩
      (List.prefix_append _ _) (Nat.le_of_lt hlt)
    exact hp
  obtain ⟨phase, hf⟩ := s.framedAt_records
  rw [← ht, framedAt_append] at hf
  have hitems := congrArg Prod.fst hf
  have hend := congrArg Prod.snd hf
  simp only at hitems hend
  by_contra hge
  -- then the bytes between `x` and the last good record hold no record and leave nothing behind
  have hlen := congrArg List.length hitems
  rw [List.length_append, List.length_map] at hlen
  have hnil : (feed metadataPreamble recordFramer (framedAt x).2 t).1 = [] :=
    List.length_eq_zero_iff.mp (by omega)
  have herr : (framedAt x).2.error = none := by
    have h16 := s.bad_length
    exact (s.error_none_iff h).mpr (by omega)
  have hphase : ∃ v, (framedAt x).2.phase = some v := by
    cases hp : (framedAt x).2.phase with
    | some v => exact ⟨v, rfl⟩
    | none =>
      rw [show (framedAt x).1 = [] from feed_items_of_none metadataPreamble recordFramer hp,
        List.length_nil, hnil] at hlen
      exact absurd (List.length_eq_zero_iff.mp hlen.symm) hne
  obtain ⟨v, hv⟩ := hphase
  have hcons := drain_conserves (recordFramer v) id
    (fun buf b n hb => (lookRecord_item hb).1) ((framedAt x).2.buffer ++ t)
  have hfeed : feed metadataPreamble recordFramer (framedAt x).2 t =
      enter recordFramer v ((framedAt x).2.buffer ++ t) := by
    simp only [feed, herr, hv]
  rw [hfeed] at hnil hend
  have hrest := congrArg Progress.buffer hend
  simp only [enter] at hnil hrest
  rw [hnil, hrest] at hcons
  have ht0 := (List.append_eq_nil_iff.mp hcons.symm).2
  rw [ht0, List.append_nil] at ht
  rw [ht] at hlt
  exact Nat.lt_irrefl _ hlt

end MalformedStream

theorem length_flatMap_le {before ds : List Delivery} (h : before <+: ds) :
    (before.flatMap Delivery.bytes).length ≤ (ds.flatMap Delivery.bytes).length := by
  obtain ⟨t, rfl⟩ := h
  rw [List.flatMap_append, List.length_append]
  omega

/-- A run over a malformed stream: the records of the calls before the failing one, and the error. -/
theorem run_malformed (s : MalformedStream) (recycler : Option ℕ) {ds : List Delivery}
    (h : ds.flatMap Delivery.bytes = s.bytes) :
    ∃ ok d later msg, ∃ batches : List (List RecordRef), ds = ok ++ d :: later ∧
      (receiveAll D recycler ds).1.own.events =
        batches.map .data ++ [.error { code := .parseError, message := msg }] ∧
      (ok.flatMap Delivery.bytes).length < s.front.length + s.bad.length ∧
      s.front.length + s.bad.length ≤ ((ok ++ [d]).flatMap Delivery.bytes).length ∧
      List.Forall₂ (Delivers D (receiveAll D recycler ok).1.own.dbnVersion)
        (MalformedStream.framedAt (ok.flatMap Delivery.bytes)).1 batches.flatten := by
  obtain ⟨msg, -, hmsg⟩ := s.feed_after s.rest [] (List.append_nil _)
  have hq : (framed ds).2.error = some msg := by
    rw [(framed_eq ds).2, h]
    exact hmsg
  obtain ⟨ok, d, later, rfl, h1, h2, h3, h4⟩ :=
    run_error D (newParser_tracks recycler) (newParser_sent D recycler) rfl hq
  have hok : ok.flatMap Delivery.bytes ++ (d :: later).flatMap Delivery.bytes = s.bytes := by
    rw [← List.flatMap_append, h]
  have hokd : (ok ++ [d]).flatMap Delivery.bytes ++ later.flatMap Delivery.bytes = s.bytes := by
    rw [← List.flatMap_append, List.append_assoc]
    exact h
  rw [show (feedAll _ _ _ (ok.map Delivery.bytes)).2 = _ from (framed_eq ok).2] at h1
  rw [show (feedAll _ _ _ ((ok ++ [d]).map Delivery.bytes)).2 = _ from (framed_eq (ok ++ [d])).2] at h2
  rw [List.nil_append, show (feedAll _ _ _ (ok.map Delivery.bytes)).1.flatten = _ from
    (framed_eq ok).1] at h3
  obtain ⟨⟨batches, hev, hall⟩, -⟩ := h3
  refine ⟨ok, d, later, msg, batches, rfl, ?_, (s.error_none_iff hok).mp h1, ?_, hall⟩
  · rw [← hev]
    exact h4
  · by_contra hlt
    exact h2 ((s.error_none_iff hokd).mpr (Nat.lt_of_not_le hlt))

/-- **When no record is lost to a parse error.**  The sink gets exactly the good records and then one error
if and only if there are none, or the deliveries are cut somewhere between the end of the last good record
and the point where the malformed one is recognised. -/
theorem all_records_sent_iff (s : MalformedStream) (recycler : Option ℕ) (ds : List Delivery)
    (h : ds.flatMap Delivery.bytes = s.bytes) :
    (∃ (batches : List (List RecordRef)) (e : Error),
        (receiveAll D recycler ds).1.own.events = batches.map .data ++ [.error e] ∧
        List.Forall₂ (Delivers D s.version) (s.records.map Record.bytes) batches.flatten) ↔
      s.records = [] ∨
        ∃ before after, ds = before ++ after ∧
          s.front.length ≤ (before.flatMap Delivery.bytes).length ∧
          (before.flatMap Delivery.bytes).length < s.front.length + s.bad.length := by
  obtain ⟨ok, d, later, msg, batches, rfl, hev, hlt, hge, hall⟩ := run_malformed D s recycler h
  have hok : ok.flatMap Delivery.bytes ++ (d :: later).flatMap Delivery.bytes = s.bytes := by
    rw [← List.flatMap_append, h]
  constructor
  · rintro ⟨batches', e, hev', hall'⟩
    by_cases hne : s.records = []
    · exact Or.inl hne
    · refine Or.inr ⟨ok, d :: later, rfl, ?_, hlt⟩
      by_contra hfront
      have hb : batches' = batches := by
        rw [hev] at hev'
        exact List.map_injective_iff.mpr (fun _ _ h => SinkEvent.data.inj h)
          (List.append_inj' hev' rfl).1.symm
      have hmissing := s.items_of_lt hok (Nat.lt_of_not_le hfront) hne
      have h1 := hall.length_eq
      have h2 := hall'.length_eq
      rw [hb, List.length_map] at h2
      omega
  · intro hcond
    refine ⟨batches, _, hev, ?_⟩
    by_cases hne : s.records = []
    · have hnil := s.items_prefix hok
      rw [hne, List.map_nil, List.prefix_nil] at hnil
      rw [hnil] at hall
      rw [hne, List.forall₂_nil_left_iff.mp hall]
      exact .nil
    · obtain ⟨before, after, hcut, hle, hlt'⟩ := hcond.resolve_left hne
      -- the failing call is not among the first ones, so the cut lies in the calls before it
      have hbefore : before <+: ok := by
        have hp1 : before <+: ok ++ d :: later := ⟨after, hcut.symm⟩
        have hp2 : ok ++ [d] <+: ok ++ d :: later := ⟨later, by rw [List.append_assoc]; rfl⟩
        rcases List.prefix_or_prefix_of_prefix hp1 hp2 with hp | hp
        · rcases List.prefix_concat_iff.mp hp with rfl | hp
          · omega
          · exact hp
        · have := length_flatMap_le hp
          omega
      have hfront := Nat.le_trans hle (length_flatMap_le hbefore)
      obtain ⟨hitems, hphase⟩ := s.items_of_le hok hfront hlt
      have htracks := run_tracks D (newParser_tracks recycler) ok
      rw [show (feedAll _ _ _ (ok.map Delivery.bytes)).2 = _ from (framed_eq ok).2] at htracks
      rw [hitems, show (receiveAll D recycler ok).1.own.dbnVersion = s.version from
        version_of_phase htracks (hphase.resolve_right hne)] at hall
      exact hall

/-- One record, and 16 bytes that state no length. -/
def goodThenBad : MalformedStream where
  metadata := none
  records := [⟨[4] ++ List.replicate 15 0, by decide, by decide, by decide⟩]
  bad := List.replicate 16 0
  rest := []
  malformed := by decide
  first := by decide
  unmarked := by decide

/-- The record in one call, the malformed header in the next. -/
def inTwoCalls : List Delivery :=
  [⟨zeroed, [.ofBytes (goodThenBad.bytes.take 16)]⟩, ⟨zeroed, [.ofBytes (goodThenBad.bytes.drop 16)]⟩]

theorem all_records_sent_in_two :
    ∃ (batches : List (List RecordRef)) (e : Error),
      (receiveAll databentoCpp none inTwoCalls).1.own.events = batches.map .data ++ [.error e] ∧
      List.Forall₂ (Delivers databentoCpp goodThenBad.version) (goodThenBad.records.map Record.bytes)
        batches.flatten :=
  (all_records_sent_iff databentoCpp goodThenBad none inTwoCalls (by decide +kernel)).mpr
    (Or.inr ⟨inTwoCalls.take 1, inTwoCalls.drop 1, rfl, by decide +kernel, by decide +kernel⟩)

/-- Both in one call. -/
def inOneCall : List Delivery := [⟨zeroed, [.ofBytes goodThenBad.bytes]⟩]

/-- **A record is lost**: it arrived in the call that met the malformed header. -/
theorem not_all_records_sent_in_one :
    inOneCall.flatMap Delivery.bytes = goodThenBad.bytes ∧
      ¬∃ (batches : List (List RecordRef)) (e : Error),
        (receiveAll databentoCpp none inOneCall).1.own.events = batches.map .data ++ [.error e] ∧
        List.Forall₂ (Delivers databentoCpp goodThenBad.version)
          (goodThenBad.records.map Record.bytes) batches.flatten := by
  refine ⟨by decide +kernel, ?_⟩
  rintro ⟨batches, e, hev, hall⟩
  have hrun : (receiveAll databentoCpp none inOneCall).1.own.events.length = 1 := by decide +kernel
  rw [hev, List.length_append, List.length_map] at hrun
  have hlen := hall.length_eq
  have hnone : batches.length = 0 := by
    rw [List.length_singleton] at hrun
    omega
  rw [List.length_eq_zero_iff.mp hnone] at hlen
  exact absurd hlen (by decide)

end DbnPipe.Dbn
