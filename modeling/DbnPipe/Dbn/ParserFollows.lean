import DbnPipe.Dbn.ParserStage
import DbnPipe.Dbn.SplitIndependence

/-!
# Where the parser behind a component stands

The parser has the chain of the component in front of it only while it is called, and keeps what it could not
use yet in that chain.

* `Whole` — an optional complete metadata block, then complete records; `whole_of_feed` — a stream that the
  parser uses up is one;
* `Follows` — **where the parser stands**: it has seen what was consumed and what it left in the chain, or the
  sink got its error, or the end of a whole stream;
* `Follows.take`, `Follows.arrive`, `Follows.signal_error`, `Follows.signal_done` — what an `OnData`, new bytes
  and the two signals do to that;
* `Follows.ends` — what the sink has been told once there was a signal.
-/

namespace DbnPipe.Dbn

open Layout Framing Chain

/-! ### Whole streams -/

/-- An optional complete metadata block, then complete records. -/
def Whole (bytes : List Byte) : Prop :=
  ∃ (metadata : Option Metadata) (records : List Record),
    bytes = preamble metadata ++ records.flatMap Record.bytes

/-- The four bytes of a length can be read back from it. -/
theorem le32_frameSize (b0 b1 b2 b3 b4 b5 b6 b7 : Byte) (rest : List Byte) :
    le32 (frameSize (b0 :: b1 :: b2 :: b3 :: b4 :: b5 :: b6 :: b7 :: rest)) = [b4, b5, b6, b7] := by
  have h4 := b4.toNat_lt
  have h5 := b5.toNat_lt
  have h6 := b6.toNat_lt
  have h7 := b7.toNat_lt
  have hsize : frameSize (b0 :: b1 :: b2 :: b3 :: b4 :: b5 :: b6 :: b7 :: rest) =
      b4.toNat + 256 * b5.toNat + 256 ^ 2 * b6.toNat + 256 ^ 3 * b7.toNat := rfl
  have hbyte : ∀ (n : ℕ) (b : Byte), n % 256 = b.toNat → UInt8.ofNat n = b := by
    intro n b hn
    rw [← UInt8.toNat_inj, UInt8.toNat_ofNat']
    exact hn
  rw [hsize, le32, hbyte _ b4 (by omega), hbyte _ b5 (by omega), hbyte _ b6 (by omega), hbyte _ b7 (by omega)]

/-- A complete metadata block at the front of a stream. -/
theorem take_metadata {buf : List Byte} (hmagic : buf.take 3 = magic)
    (hlen : dbnHeaderSize + frameSize buf ≤ buf.length) {m : Metadata} (hversion : m.version = buf.getD 3 0)
    (hbody : m.body = (buf.drop dbnHeaderSize).take (frameSize buf)) :
    buf.take (dbnHeaderSize + frameSize buf) = m.bytes := by
  have hsize : m.body.length = frameSize buf := by
    rw [hbody, List.length_take, List.length_drop]
    omega
  have h8 : 8 ≤ buf.length := by
    rw [dbnHeaderSize] at hlen
    omega
  rw [Metadata.bytes, hsize, hversion, hbody, ← hmagic]
  obtain _ | ⟨b0, _ | ⟨b1, _ | ⟨b2, _ | ⟨b3, _ | ⟨b4, _ | ⟨b5, _ | ⟨b6, _ | ⟨b7, rest⟩⟩⟩⟩⟩⟩⟩⟩ := buf
  iterate 8 (· simp at h8)
  rw [le32_frameSize, dbnHeaderSize, Nat.add_comm]
  rfl

/-- What is skipped at the front of a stream is an optional metadata block. -/
theorem lookMetadata_item {buf : List Byte} {version : Byte} {n : ℕ} (h : lookMetadata buf = .item version n) :
    ∃ metadata, buf.take n = preamble metadata ∧ version = versionOf metadata := by
  simp only [lookMetadata] at h
  split at h
  · cases h
  rename_i h8
  split at h
  · simp only [Look.item.injEq] at h
    obtain ⟨rfl, rfl⟩ := h
    exact ⟨none, rfl, rfl⟩
  rename_i hmagic
  split at h
  · cases h
  rename_i hmax
  split at h
  · cases h
  rename_i hlen
  simp only [Look.item.injEq] at h
  obtain ⟨rfl, rfl⟩ := h
  have hbody : ((buf.drop dbnHeaderSize).take (frameSize buf)).length ≤ kMaxMetadataSize := by
    rw [List.length_take, List.length_drop]
    omega
  exact ⟨some ⟨buf.getD 3 0, _, hbody⟩,
    take_metadata (not_not.mp hmagic) (Nat.le_of_not_lt hlen) rfl rfl, rfl⟩

/-- What is taken off are records. -/
theorem records_of_drain (version : Byte) (buf : List Byte) :
    ∃ records : List Record, (drain (recordFramer version) buf).items = records.map Record.bytes := by
  induction buf using drain_induction (recordFramer version) with
  | more buf hm =>
    rw [drain_more _ hm]
    exact ⟨[], rfl⟩
  | bad buf e hb =>
    rw [drain_bad _ hb]
    exact ⟨[], rfl⟩
  | item buf b n hi ih =>
    obtain ⟨hb, hn, h16, hle⟩ := lookRecord_item hi
    obtain ⟨records, hrecords⟩ := ih
    have hlen : b.length = n := by
      rw [hb, List.length_take]
      omega
    have hstated : statedSize b = b.length := by
      rw [hlen, hb, statedSize_take (by rw [headerSize] at h16; omega)]
      exact hn.symm
    have hmax := statedSize_le b
    rw [drain_item _ hi, hrecords]
    exact ⟨⟨b, hstated, by omega, by rw [kMaxRecordSize]; omega⟩ :: records, rfl⟩

/-- **A stream that the framing parser uses up is whole.** -/
theorem whole_of_feed {buf : List Byte} {items : List (List Byte)} {phase : Option Byte}
    (h : feed metadataPreamble recordFramer .start buf = (items, ⟨phase, [], none⟩)) :
    ∃ (metadata : Option Metadata) (records : List Record),
      buf = preamble metadata ++ records.flatMap Record.bytes ∧
      items = records.map Record.bytes ∧ (phase = some (versionOf metadata) ∨ items = []) := by
  have hlook : metadataPreamble.look buf = lookMetadata buf := rfl
  cases hl : lookMetadata buf with
  | more =>
    simp only [feed, Progress.start, hlook, hl, Prod.mk.injEq, Progress.mk.injEq, List.nil_append] at h
    obtain ⟨rfl, rfl, rfl, -⟩ := h
    exact ⟨none, [], rfl, rfl, .inr rfl⟩
  | bad e =>
    simp [feed, Progress.start, hlook, hl] at h
  | item version n =>
    simp only [feed, Progress.start, hlook, hl, enter, Prod.mk.injEq, Progress.mk.injEq, List.nil_append] at h
    obtain ⟨hitems, hphase, hrest, -⟩ := h
    obtain ⟨metadata, htake, hversion⟩ := lookMetadata_item hl
    obtain ⟨records, hrecords⟩ := records_of_drain version (buf.drop n)
    have hconserves := drain_conserves (recordFramer version) id
      (fun _ _ _ hi => (lookRecord_item hi).1) (buf.drop n)
    rw [hrest, List.append_nil, List.flatMap_id, hrecords] at hconserves
    refine ⟨metadata, records, ?_, hitems.symm.trans hrecords, .inl (by rw [← hphase, hversion])⟩
    rw [← htake, List.flatMap_def, hconserves, List.take_append_drop]

/-! ### Where the parser stands -/

variable (D : Databento)

/-- The sink got all records of a whole stream, and then `OnComplete`, once. -/
def Complete (bytes : List Byte) (events : List SinkEvent) : Prop :=
  ∃ (metadata : Option Metadata) (records : List Record) (batches : List (List RecordRef)),
    bytes = preamble metadata ++ records.flatMap Record.bytes ∧
      List.Forall₂ (Delivers D (versionOf metadata)) (records.map Record.bytes) batches.flatten ∧
      events = batches.map .data ++ [.complete]

/-- The sink got some batches, and then `OnError`, once. -/
def Failed (events : List SinkEvent) : Prop :=
  ∃ (batches : List (List RecordRef)) (e : Error), events = batches.map .data ++ [.error e]

/-- **Where the parser stands**: the bytes `consumed` were taken off the chain, `held` are in it, and `signals`
were given. -/
inductive Follows (consumed held : List Byte) (signals : List Signal) (t : ParserStage) : Prop
  | live {p : Progress Byte Byte String} {items : List (List Byte)}
      (tracks : ∃ chain, Tracks t.parser chain p) (sent : Sent D t.parser items) (error : p.error = none)
      (fed : feed metadataPreamble recordFramer .start (consumed ++ p.buffer) = (items, p))
      (heard : t.heard = 0) (one : signals.length ≤ 1)
      (kept : signals = [] → p.buffer <+: held)
      (done : .done ∈ signals → held = [] ∧ p.buffer = [])
  | failed (finalized : t.parser.finalized = true) (events : Failed t.parser.own.events)
  | completed (done : .done ∈ signals) (heard : t.heard = signals.length) (held_eq : held = [])
      (events : Complete D consumed t.parser.own.events)

variable {D} {consumed held : List Byte} {signals : List Signal} {t : ParserStage}

theorem hearOne_of_finalized {c : Component Parser} (h : c.finalized = true) (s : Signal) :
    ParserStage.hearOne c s = c := by
  cases s with
  | error e => rw [ParserStage.hearOne, onError, if_pos h]
  | done => rw [ParserStage.hearOne, onDone, onComplete, if_pos h]

/-- A parser that has failed hears nothing more. -/
theorem hear_of_finalized (h : t.parser.finalized = true) (signals : List Signal) :
    (t.hear signals).parser = t.parser := by
  have hfold : ∀ (signals : List Signal) (c : Component Parser), c.finalized = true →
      signals.foldl ParserStage.hearOne c = c := by
    intro signals
    induction signals with
    | nil => exact fun _ _ => rfl
    | cons s signals ih =>
      intro c hc
      rw [List.foldl_cons, hearOne_of_finalized hc]
      exact ih c hc
  exact hfold _ _ h

theorem hear_nil (h : t.heard = 0) : t.hear [] = t := by
  rw [ParserStage.hear, List.drop_nil, List.foldl_nil, List.length_nil, ← h]

theorem Follows.new (turns : List SinkTurn) : Follows D [] [] [] { turns := turns } :=
  .live (p := .start) ⟨_, newParser_tracks none⟩ (newParser_sent D none) rfl start_settled rfl (Nat.zero_le 1)
    (fun _ => List.nil_prefix) fun h => absurd h List.not_mem_nil

/-- New bytes go behind what is in the chain. -/
theorem Follows.arrive (h : Follows D consumed held signals t) (hnd : .done ∉ signals) (x : List Byte) :
    Follows D consumed (held ++ x) signals t := by
  cases h with
  | live tracks sent error fed heard one kept done =>
    exact .live tracks sent error fed heard one (fun hs => (kept hs).trans (List.prefix_append held x))
      fun hd => absurd hd hnd
  | failed finalized events => exact .failed finalized events
  | completed done => exact absurd done hnd

/-- `OnError` is given, the first signal. -/
theorem Follows.signal_error (h : Follows D consumed held [] t) (e : Error) :
    Follows D consumed held [.error e] t := by
  cases h with
  | live tracks sent error fed heard =>
    exact .live tracks sent error fed heard (Nat.le_refl 1) (fun hs => absurd hs (by simp))
      fun hd => absurd hd (by simp)
  | failed finalized events => exact .failed finalized events
  | completed done => exact absurd done List.not_mem_nil

/-- `OnDone` is given, the first signal, with nothing in the chain. -/
theorem Follows.signal_done (h : Follows D consumed [] [] t) : Follows D consumed [] [.done] t := by
  cases h with
  | live tracks sent error fed heard one kept done =>
    have hnil := List.prefix_nil.mp (kept rfl)
    exact .live tracks sent error fed heard (Nat.le_refl 1) (fun hs => absurd hs (by simp))
      fun _ => ⟨rfl, hnil⟩
  | failed finalized events => exact .failed finalized events
  | completed done => exact absurd done List.not_mem_nil

/-- After a signal the chain can be cleared. -/
theorem Follows.clear (h : Follows D consumed held signals t) (hne : signals ≠ []) :
    Follows D consumed [] signals t := by
  cases h with
  | live tracks sent error fed heard one kept done =>
    exact .live tracks sent error fed heard one (fun hs => absurd hs hne)
      fun hd => ⟨rfl, (done hd).2⟩
  | failed finalized events => exact .failed finalized events
  | completed done heard held_eq events => exact .completed done heard rfl events

/-- A parser that has failed leaves the chain alone. -/
theorem take_of_finalized (h : t.parser.finalized = true) (chain : Chain) :
    (t.take D chain).stage.parser = t.parser := by
  simp only [ParserStage.take, onData, if_pos h]

/-- What is consumed and what is left, where the chain that is left holds a suffix. -/
theorem take_consumed {chain rest : Chain} (hwf : WF chain) (hrest : WF rest) (hsuffix : bytes rest <:+ bytes chain) :
    (bytes chain).take (chain.size - rest.size) ++ bytes rest = bytes chain ∧
      (bytes chain).drop (chain.size - rest.size) = bytes rest := by
  obtain ⟨front, hfront⟩ := hsuffix
  have hn : chain.size - rest.size = front.length := by
    rw [size_eq hwf, size_eq hrest, ← hfront, List.length_append]
    omega
  rw [hn, ← hfront, List.take_left, List.drop_left]
  exact ⟨rfl, rfl⟩

/-- **One `OnData` of the parser is one `feed`** of what it has not seen; the chain holds what that leaves. -/
theorem take_spec {chain : Chain} {p : Progress Byte Byte String} {unseen : List Byte}
    (htracks : ∃ chain, Tracks t.parser chain p) (hwf : WF chain) (hbytes : bytes chain = p.buffer ++ unseen) :
    let q := feed metadataPreamble recordFramer p unseen
    ∃ rest, Tracks (t.take D chain).stage.parser rest q.2 ∧
      (bytes chain).take (t.take D chain).consumed ++ bytes rest = bytes chain ∧
      (bytes chain).drop (t.take D chain).consumed = bytes rest ∧
      (q.2.error = none → ∀ items, Sent D t.parser items → Sent D (t.take D chain).stage.parser (items ++ q.1)) ∧
      (p.error = none → ∀ msg, q.2.error = some msg → (t.take D chain).stage.parser.own.events =
        t.parser.own.events ++ [.error { code := .parseError, message := msg }]) := by
  intro q
  obtain ⟨_, htracks⟩ := htracks
  have hin : Tracks t.parser chain { p with buffer := p.buffer ++ unseen } :=
    ⟨hwf, hbytes, htracks.finalized, htracks.phase, htracks.version⟩
  obtain ⟨hout, -, hok, hbad⟩ := receive_spec D (s := (t.parser, chain)) hin ⟨(t.turns.headD {}).temp, []⟩
  have hpush : feed metadataPreamble recordFramer { p with buffer := p.buffer ++ unseen } [] = q :=
    (feed_push _ _ p unseen).symm
  simp only [Delivery.bytes, List.flatMap_nil, hpush] at hout hok hbad
  have hreceive : receive D (t.parser, chain) ⟨(t.turns.headD {}).temp, []⟩ =
      onData D (t.turns.headD {}).temp t.parser chain := rfl
  rw [hreceive] at hout hok hbad
  have hsuffix : bytes (onData D (t.turns.headD {}).temp t.parser chain).2 <:+ bytes chain := by
    rw [hout.buffer, hbytes]
    exact feed_suffix _ _ p unseen
  obtain ⟨htake, hdrop⟩ := take_consumed hwf hout.wf hsuffix
  exact ⟨_, hout, htake, hdrop, hok, hbad⟩

/-- An `OnData` of a parser that nothing has ended. -/
theorem Follows.take_live {chain : Chain} {p : Progress Byte Byte String} {items : List (List Byte)}
    {unseen : List Byte} (htracks : ∃ chain, Tracks t.parser chain p) (hsent : Sent D t.parser items)
    (herror : p.error = none)
    (hfed : feed metadataPreamble recordFramer .start (consumed ++ p.buffer) = (items, p))
    (hheard : t.heard = 0) (hwf : WF chain) (hbytes : bytes chain = p.buffer ++ unseen) :
    Follows D (consumed ++ (bytes chain).take (t.take D chain).consumed)
      ((bytes chain).drop (t.take D chain).consumed) [] (t.take D chain).stage := by
  obtain ⟨rest, hout, htake, hdrop, hok, hbad⟩ := take_spec (D := D) htracks hwf hbytes
  have hq := feed_append metadataPreamble recordFramer .start (consumed ++ p.buffer) unseen
  rw [hfed] at hq
  rw [hdrop]
  cases he : (feed metadataPreamble recordFramer p unseen).2.error with
  | none =>
    refine .live ⟨_, hout⟩ (hok he items hsent) he ?_ hheard (Nat.zero_le 1)
      (fun _ => ?_) fun h => absurd h List.not_mem_nil
    · rw [← hout.buffer, List.append_assoc, htake, hbytes, ← List.append_assoc]
      exact hq
    · rewrite [hout.buffer]
      exact List.prefix_refl _
  | some msg =>
    obtain ⟨batches, hbatches, -⟩ := hsent.batches
    refine .failed (hout.finalized.trans (by rw [he]; rfl)) ⟨batches, { code := .parseError, message := msg }, ?_⟩
    rw [← hbatches]
    exact hbad herror msg he

/-- An error behind the batches. -/
theorem failed_tell {c : Component Parser} {items : List (List Byte)} (h : Sent D c items) (e : Error) :
    Failed (tell (.error e) { c with finalized := true }).own.events := by
  obtain ⟨batches, hbatches, -⟩ := h.batches
  exact ⟨batches, e, congrArg (· ++ [SinkEvent.error e]) hbatches⟩

/-- `OnError` reaches a parser that nothing has ended. -/
theorem hear_error (hopen : t.parser.finalized = false) (hheard : t.heard = 0) (e : Error) :
    (t.hear [.error e]).parser = tell (.error e) { t.parser with finalized := true } := by
  rw [ParserStage.hear, hheard, List.drop_zero, List.foldl_cons, List.foldl_nil, ParserStage.hearOne, onError,
    if_neg (by simp [hopen])]

/-- **One `OnData` of the parser**, which hears what was signalled before it. -/
theorem Follows.take {chain : Chain} (h : Follows D consumed (bytes chain) signals t) (hwf : WF chain)
    (hnd : .done ∉ signals) :
    Follows D (consumed ++ (bytes chain).take ((t.hear signals).take D chain).consumed)
      ((bytes chain).drop ((t.hear signals).take D chain).consumed) signals
      ((t.hear signals).take D chain).stage := by
  cases h with
  | completed done => exact absurd done hnd
  | failed finalized events =>
    have hheard := hear_of_finalized finalized signals
    have htaken := take_of_finalized (D := D) (t := t.hear signals) (by rw [hheard]; exact finalized) chain
    refine .failed ?_ ?_
    · rw [htaken, hheard]
      exact finalized
    · rw [htaken, hheard]
      exact events
  | live tracks sent error fed heard one kept done =>
    cases signals with
    | nil =>
      obtain ⟨unseen, hunseen⟩ := kept rfl
      rw [hear_nil heard]
      exact Follows.take_live tracks sent error fed heard hwf hunseen.symm
    | cons s rest =>
      have hrest : rest = [] := List.length_eq_zero_iff.mp (by rw [List.length_cons] at one; omega)
      cases s with
      | done => exact absurd List.mem_cons_self hnd
      | error e =>
        obtain ⟨_, htracks⟩ := tracks
        have hopen : t.parser.finalized = false := by rw [htracks.finalized, error]; rfl
        have hheard := hear_error hopen heard e
        have htaken := take_of_finalized (D := D) (t := t.hear [.error e]) (by rw [hheard]; rfl) chain
        rw [hrest]
        refine .failed ?_ ?_
        · rw [htaken, hheard]
          rfl
        · rw [htaken, hheard]
          exact failed_tell sent e

/-- `OnDone` reaches a parser that nothing has ended. -/
theorem hear_done (hopen : t.parser.finalized = false) (hheard : t.heard = 0) :
    (t.hear [.done]).parser = tell .complete t.parser := by
  rw [ParserStage.hear, hheard, List.drop_zero, List.foldl_cons, List.foldl_nil, ParserStage.hearOne, onDone,
    onComplete, if_neg (by simp [hopen])]

/-- **`OnDone` behind a stream that the parser has used up.** -/
theorem complete_of_fed {p : Progress Byte Byte String} {items : List (List Byte)} {chain : Chain}
    (htracks : Tracks t.parser chain p) (hsent : Sent D t.parser items) (herror : p.error = none)
    (hfed : feed metadataPreamble recordFramer .start (consumed ++ p.buffer) = (items, p)) (hbuffer : p.buffer = []) :
    Complete D consumed (tell .complete t.parser).own.events := by
  obtain ⟨phase, buffer, error⟩ := p
  obtain rfl : buffer = [] := hbuffer
  obtain rfl : error = none := herror
  rw [List.append_nil] at hfed
  obtain ⟨metadata, records, hbytes, hitems, hphase⟩ := whole_of_feed hfed
  obtain ⟨batches, hbatches, hdelivers⟩ := hsent.batches
  refine ⟨metadata, records, batches, hbytes, ?_, congrArg (· ++ [SinkEvent.complete]) hbatches⟩
  rw [← hitems]
  rcases hphase with hphase | hnil
  · have hversion := htracks.phase
    rw [hphase] at hversion
    split at hversion
    · rw [Option.some.inj hversion]
      exact hdelivers
    · exact absurd hversion (by simp)
  · rw [hnil] at hdelivers ⊢
    rw [List.forall₂_nil_left_iff.mp hdelivers]
    exact .nil

/-- What the sink was told, once there was a signal. -/
theorem Follows.ends (h : Follows D consumed held signals t) (hne : signals ≠ []) :
    Failed (t.events signals) ∨ .done ∈ signals ∧ Complete D consumed (t.events signals) := by
  cases h with
  | live tracks sent error fed heard one kept done =>
    obtain ⟨_, htracks⟩ := tracks
    have hopen : t.parser.finalized = false := by rw [htracks.finalized, error]; rfl
    obtain ⟨s, rest, rfl⟩ := List.exists_cons_of_ne_nil hne
    have hrest : rest = [] := List.length_eq_zero_iff.mp (by rw [List.length_cons] at one; omega)
    subst hrest
    cases s with
    | error e =>
      rw [ParserStage.events, hear_error hopen heard]
      exact .inl (failed_tell sent e)
    | done =>
      rw [ParserStage.events, hear_done hopen heard]
      exact .inr ⟨List.mem_singleton_self _,
        complete_of_fed htracks sent error fed (done (List.mem_singleton_self _)).2⟩
  | failed finalized events =>
    rw [ParserStage.events, hear_of_finalized finalized]
    exact .inl events
  | completed done heard held_eq events =>
    have hheard : (t.hear signals).parser = t.parser := by
      rw [ParserStage.hear, heard, List.drop_length, List.foldl_nil]
    rw [ParserStage.events, hheard]
    exact .inr ⟨done, events⟩

/-- What the sink was told before. -/
theorem Follows.before (h : Follows D consumed held [] t) :
    (∃ batches : List (List RecordRef), t.events [] = batches.map .data) ∨ Failed (t.events []) := by
  cases h with
  | live tracks sent error fed heard =>
    rw [ParserStage.events, hear_nil heard]
    obtain ⟨batches, hbatches, -⟩ := sent.batches
    exact .inl ⟨batches, hbatches⟩
  | failed finalized events =>
    rw [ParserStage.events, hear_of_finalized finalized]
    exact .inr events
  | completed done => exact absurd done List.not_mem_nil

end DbnPipe.Dbn
