import DbnPipe.Api.MetadataBuilders
import DbnPipe.Api.SymbologyBuilder
import DbnPipe.Library.JsonMachine
import Mathlib.Data.List.TakeWhile

/-!
# Best-effort results

A connection that breaks off in the middle of a response: `OnError` parses what has arrived, and takes **what can
be built from it** for the result.

* `deliver`, `interrupted` — a response in chains, and the results when an error comes after it;
* `JsonReader.Reads` — `Parse` succeeds on the complete documents, with their events, and **on nothing else**;
* `BestEffort` — a success is the one of the whole body, and an error in front of the body is passed on;
* `best_effort_iff` — when this holds, for each of the builders.
-/

namespace DbnPipe.Api

open JsonText

variable {β ρ : Type}

/-! ### Collecting the body -/

namespace JsonParser

/-- The bytes of some chains. -/
def body (chains : List Chain) : List Byte := chains.flatMap Chain.bytes

/-- The chains, one after the other. -/
def deliver (chains : List Chain) (p : JsonParser β ρ) : JsonParser β ρ := chains.foldl (fun p c => (p.onData c).1) p

/-- **What the loop collects**, or the overflow. -/
theorem dataLoop_spec {chain : Chain} (h : Chain.WF chain) {fuel : ℕ} (hfuel : (Chain.bytes chain).length ≤ fuel)
    {p : JsonParser β ρ} (hp : p.completed = false) (hsize : p.buffer.length ≤ kMaxBufferSize) :
    (p.buffer.length + (Chain.bytes chain).length ≤ kMaxBufferSize ∧
      (dataLoop fuel chain p).1 = { p with buffer := p.buffer ++ Chain.bytes chain }) ∨
    (kMaxBufferSize < p.buffer.length + (Chain.bytes chain).length ∧ (dataLoop fuel chain p).1.completed = true ∧
      (dataLoop fuel chain p).1.results = p.results ++ [.error overflow]) := by
  induction fuel generalizing chain p with
  | zero =>
    have hnil := List.eq_nil_of_length_eq_zero (Nat.le_zero.mp hfuel)
    refine Or.inl ⟨by rw [hnil]; exact hsize, ?_⟩
    rw [hnil, List.append_nil]
    rfl
  | succ fuel ih =>
    cases he : chain.empty with
    | true =>
      have hnil := (Chain.empty_iff h).mp he
      refine Or.inl ⟨by rw [hnil]; exact hsize, ?_⟩
      rw [dataLoop, he, if_pos rfl, hnil, List.append_nil]
    | false =>
      obtain ⟨s, hdata, hcontig, hpos, hbytes⟩ := Chain.front h he
      have hlength := congrArg List.length hbytes
      rw [List.length_append] at hlength
      rw [dataLoop, he, if_neg Bool.false_ne_true]
      dsimp only
      by_cases hover : kMaxBufferSize < p.buffer.length + chain.contiguousSize id
      · refine Or.inr ⟨by omega, ?_⟩
        rw [if_pos hover, complete, hp, if_neg Bool.false_ne_true]
        exact ⟨rfl, rfl⟩
      · rw [if_neg hover, hdata]
        dsimp only
        have htake : (s.bytes.drop chain.consumedOffset).take (chain.contiguousSize id) =
            s.bytes.drop chain.consumedOffset := by rw [hcontig, List.take_length]
        rw [htake]
        have hloop := ih (Chain.wf_consumed h (chain.contiguousSize id)) (by omega)
          (p := { p with buffer := p.buffer ++ s.bytes.drop chain.consumedOffset }) hp
          (by rw [List.length_append]; omega)
        rw [List.length_append, List.append_assoc, ← hbytes, Nat.add_assoc, ← hlength] at hloop
        exact hloop

/-- A completed parser takes no data. -/
theorem deliver_completed {p : JsonParser β ρ} (hp : p.completed = true) (chains : List Chain) :
    deliver chains p = p := by
  induction chains with
  | nil => rfl
  | cons c chains ih =>
    have hdata : (p.onData c).1 = p := by rw [onData, if_pos hp]
    exact (congrArg (deliver chains) hdata).trans ih

/-- **What has been collected after some chains.** -/
theorem deliver_spec {chains : List Chain} (hwf : ∀ c ∈ chains, Chain.WF c) {p : JsonParser β ρ}
    (hp : p.completed = false) (hsize : p.buffer.length ≤ kMaxBufferSize) :
    (p.buffer.length + (body chains).length ≤ kMaxBufferSize ∧
      deliver chains p = { p with buffer := p.buffer ++ body chains }) ∨
    (kMaxBufferSize < p.buffer.length + (body chains).length ∧ (deliver chains p).completed = true ∧
      (deliver chains p).results = p.results ++ [.error overflow]) := by
  induction chains generalizing p with
  | nil =>
    refine Or.inl ⟨hsize, ?_⟩
    rw [body, List.flatMap_nil, List.append_nil]
    rfl
  | cons c chains ih =>
    have hc := hwf c List.mem_cons_self
    have hdata : (p.onData c).1 = (dataLoop c.size c p).1 := by
      rw [onData, hp]
      rfl
    have hbody : body (c :: chains) = Chain.bytes c ++ body chains := List.flatMap_cons
    have hdeliver : deliver (c :: chains) p = deliver chains (p.onData c).1 := rfl
    rw [hdeliver, hdata, hbody, List.length_append]
    rcases dataLoop_spec hc (Nat.le_of_eq (Chain.size_eq hc).symm) hp hsize with ⟨hle, hloop⟩ | ⟨hlt, hcompleted, hresults⟩
    · rw [hloop]
      have hrest := ih (fun d hd => hwf d (List.mem_cons_of_mem c hd))
        (p := { p with buffer := p.buffer ++ Chain.bytes c }) hp (by rw [List.length_append]; exact hle)
      rw [List.length_append, Nat.add_assoc, List.append_assoc] at hrest
      exact hrest
    · rw [deliver_completed hcompleted]
      exact Or.inr ⟨by omega, hcompleted, hresults⟩

end JsonParser

/-! ### Interrupted responses -/

/-- **`Parse` succeeds on the complete documents**, with their events, and on nothing else. -/
structure JsonReader.Reads (R : JsonReader) (decode : List Byte → String) : Prop where
  document : ∀ v b, Document decode v b → R.parse b = (v.events, none)
  other : ∀ b, (∀ v, ¬Document decode v b) → (R.parse b).2 ≠ none

section Interrupted

variable (R : JsonReader) (B : JsonBuilder β ρ) (builder : β)

/-- What `TryParse` makes of a body. -/
def parsed (b : List Byte) : Except String ρ := (JsonParser.tryParse R B { builder := builder, buffer := b }).2

/-- The results, when an error comes after some chains. -/
def interrupted (chains : List Chain) (e : Error) : List (Except Error ρ) :=
  ((JsonParser.deliver chains { builder := builder }).onError R B e).results

/-- **A best-effort result is no invention**: a success is the one of the whole body, and an error in front of the
body is passed on. -/
structure BestEffort (chains : List Chain) (b : List Byte) (e : Error) : Prop where
  sound : ∀ x, .ok x ∈ interrupted R B builder chains e → parsed R B builder b = .ok x
  early : JsonParser.body chains = [] → interrupted R B builder chains e = [.error e]

end Interrupted

/-- What has arrived is an integer of 64 bits by itself, and **not all of it**. -/
def CutNumber (decode : List Byte → String) (p b : List Byte) : Prop :=
  p.length ≤ JsonParser.kMaxBufferSize ∧ ¬Space (b.drop p.length) ∧
    ∃ minus n, Document decode (.integer minus n) p ∧ Fits minus n

section Reading

variable {R : JsonReader} {B : JsonBuilder β ρ} {builder : β} {decode : List Byte → String}

theorem parsed_nil : parsed R B builder [] = B.build builder := rfl

theorem tryParse_cons {p : JsonParser β ρ} (hb : p.buffer ≠ []) (hzero : 0 ∉ p.buffer) :
    JsonParser.tryParse R B p =
      ({ p with builder := (R.parse p.buffer).1.foldl B.handle p.builder },
        match (R.parse p.buffer).2 with
        | some e => .error ("Parse error at offset " ++ toString e.offset ++ ": " ++ e.text)
        | none => B.build ((R.parse p.buffer).1.foldl B.handle p.builder)) := by
  have htake : p.buffer.takeWhile (· ≠ 0) = p.buffer := by
    rw [List.takeWhile_eq_self_iff]
    exact fun c hc => decide_eq_true fun h => hzero (h ▸ hc)
  have hempty : ¬p.buffer.isEmpty = true := fun h => hb (List.isEmpty_iff.mp h)
  rw [JsonParser.tryParse, if_neg hempty, htake]
  dsimp only
  cases (R.parse p.buffer).2 <;> rfl

/-- `TryParse` completes nothing. -/
theorem tryParse_completed (p : JsonParser β ρ) :
    (JsonParser.tryParse R B p).1.completed = p.completed ∧ (JsonParser.tryParse R B p).1.results = p.results := by
  rw [JsonParser.tryParse]
  split
  · exact ⟨rfl, rfl⟩
  · dsimp only
    split <;> exact ⟨rfl, rfl⟩

/-- A document is built from its events. -/
theorem parsed_document (hR : R.Reads decode) {v : Json} {b : List Byte} (h : Document decode v b) :
    parsed R B builder b = B.build (v.events.foldl B.handle builder) := by
  rw [parsed, tryParse_cons h.ne_nil h.zero_notMem, hR.document v b h]

/-- Anything else is not built. -/
theorem parsed_other (hR : R.Reads decode) {b : List Byte} (hb : b ≠ []) (hzero : 0 ∉ b)
    (h : ∀ v, ¬Document decode v b) (x : ρ) : parsed R B builder b ≠ .ok x := by
  obtain ⟨e, he⟩ := Option.ne_none_iff_exists'.mp (hR.other b h)
  rw [parsed, tryParse_cons hb hzero, he]
  exact nofun

/-- **The result of an interrupted response.** -/
theorem interrupted_eq {chains : List Chain} (hwf : ∀ c ∈ chains, Chain.WF c) {e : Error}
    (he : JsonParser.isHttpError e.code = false) :
    interrupted R B builder chains e =
      if (JsonParser.body chains).length ≤ JsonParser.kMaxBufferSize then
        match parsed R B builder (JsonParser.body chains) with
        | .ok x => [.ok x]
        | .error _ => [.error e]
      else [.error JsonParser.overflow] := by
  have hspec := JsonParser.deliver_spec hwf (p := ({ builder := builder } : JsonParser β ρ)) rfl (Nat.zero_le _)
  rw [List.length_nil, Nat.zero_add, List.nil_append, List.nil_append] at hspec
  rw [interrupted]
  rcases hspec with ⟨hle, hdeliver⟩ | ⟨hlt, hcompleted, hresults⟩
  · rw [if_pos hle, hdeliver, JsonParser.onError, if_neg Bool.false_ne_true, he, if_neg Bool.false_ne_true, parsed]
    obtain ⟨hcompleted, hresults⟩ := tryParse_completed (R := R) (B := B)
      ({ builder := builder, buffer := JsonParser.body chains } : JsonParser β ρ)
    cases htry : JsonParser.tryParse R B ({ builder := builder, buffer := JsonParser.body chains } : JsonParser β ρ) with
    | mk p result =>
      rw [htry] at hcompleted hresults
      have hcomplete : ∀ r, (p.complete r).results = [r] := fun r => by
        rw [JsonParser.complete, hcompleted, if_neg Bool.false_ne_true, hresults]
        rfl
      cases result with
      | ok x => exact hcomplete (.ok x)
      | error t => exact hcomplete (.error e)
  · rw [if_neg (Nat.not_le.mpr hlt), JsonParser.onError, if_pos hcompleted]
    exact hresults

/-- What has arrived of a document. -/
theorem next_of_body {p b : List Byte} {v w : Json} (hb : Document decode v b) (hp : p <+: b)
    (hw : Document decode w p) :
    Space (b.drop p.length) ∧ v.events = w.events ∨
      ¬Space (b.drop p.length) ∧ ∃ f text g more, numberForm .start text = some f ∧ f.complete = true ∧ more ≠ [] ∧
        numberForm f more = some g ∧ g.complete = true ∧ w.events = [numberEvent f text] ∧
        v.events = [numberEvent g (text ++ more)] := by
  obtain ⟨q, rfl⟩ := hp
  rw [List.drop_left]
  exact hw.next hb

/-- **The best effort of a builder** is no invention if it builds nothing from nothing, and no other result from a
number that is cut than from the whole one. -/
theorem bestEffort_of (hR : R.Reads decode) {chains : List Chain} (hwf : ∀ c ∈ chains, Chain.WF c) {v : Json}
    {b : List Byte} (hb : Document decode v b) (hp : JsonParser.body chains <+: b) {e : Error}
    (he : JsonParser.isHttpError e.code = false)
    (hempty : JsonParser.body chains = [] → ∃ t, B.build builder = .error t)
    (hcut : ∀ w f text g more, Document decode w (JsonParser.body chains) →
      (JsonParser.body chains).length ≤ JsonParser.kMaxBufferSize → ¬Space (b.drop (JsonParser.body chains).length) →
      w.events = [numberEvent f text] → v.events = [numberEvent g (text ++ more)] →
      ∀ x, B.build (B.handle builder (numberEvent f text)) = .ok x →
        B.build (B.handle builder (numberEvent g (text ++ more))) = .ok x) :
    BestEffort R B builder chains b e := by
  constructor
  · intro x hx
    rw [interrupted_eq hwf he] at hx
    split at hx
    · rename_i hle
      split at hx
      · rename_i y hy
        obtain rfl := Except.ok.inj (List.mem_singleton.mp hx)
        by_cases hnil : JsonParser.body chains = []
        · obtain ⟨t, ht⟩ := hempty hnil
          rw [hnil, parsed_nil, ht] at hy
          exact absurd hy nofun
        by_cases hdoc : ∃ w, Document decode w (JsonParser.body chains)
        · obtain ⟨w, hw⟩ := hdoc
          rw [parsed_document hR hw] at hy
          rw [parsed_document hR hb]
          rcases next_of_body hb hp hw with ⟨-, heq⟩ | ⟨hspace, f, text, g, more, -, -, -, -, -, hew, hev⟩
          · rw [heq]
            exact hy
          · rw [hew] at hy
            rw [hev]
            exact hcut w f text g more hw hle hspace hew hev x hy
        · have hzero : 0 ∉ JsonParser.body chains := fun h => hb.zero_notMem (hp.subset h)
          exact absurd hy (parsed_other hR hnil hzero (fun w hw => hdoc ⟨w, hw⟩) x)
      · exact absurd (List.mem_singleton.mp hx) nofun
    · exact absurd (List.mem_singleton.mp hx) nofun
  · intro hnil
    obtain ⟨t, ht⟩ := hempty hnil
    rw [interrupted_eq hwf he, hnil, parsed_nil, ht]
    rfl

end Reading

/-! ### Numbers, for each builder -/

theorem symbologyBuilder_scalar {e : SaxEvent} (he : Json.Scalar e) : symbologyBuilder.handle {} e = {} := by
  cases he <;> rfl

theorem datasetRangeBuilder_scalar {e : SaxEvent} (he : Json.Scalar e) : datasetRangeBuilder.handle {} e = {} := by
  cases he <;> rfl

/-- A value with one event that counts is an integer of 64 bits. -/
theorem integer_of_countOf {v : Json} {e : SaxEvent} (hv : v.events = [e]) {x : ℕ} (hx : countOf e = some x) :
    ∃ minus n, v = .integer minus n ∧ Fits minus n := by
  cases v with
  | integer minus n =>
    obtain rfl := List.singleton_inj.mp hv
    exact ⟨minus, n, rfl, (countOf_integerEvent_isSome minus n).mp (Option.isSome_of_eq_some hx)⟩
  | array vs | object ms =>
    have hlength := congrArg List.length hv
    simp [Json.events] at hlength
  | _ =>
    obtain rfl := List.singleton_inj.mp hv
    exact absurd hx.symm (Option.some_ne_none x)

theorem countOf_numberEvent {f : NumberForm} {text : List Byte} {x : ℕ}
    (h : countOf (numberEvent f text) = some x) :
    f.integral = true ∧
      countOf (Json.integerEvent (text.head? == some 0x2D) (digitsValue text)) = some x := by
  rw [numberEvent] at h
  split at h
  · exact ⟨‹_›, h⟩
  · exact absurd h.symm (Option.some_ne_none x)

/-- **A number that goes on is counted differently.** -/
theorem countOf_ne {f g : NumberForm} {text more : List Byte} (htext : numberForm .start text = some f)
    (hf : f.complete = true) (hmore : numberForm f more = some g) (hne : more ≠ []) {x : ℕ}
    (hx : countOf (numberEvent f text) = some x) : countOf (numberEvent g (text ++ more)) ≠ some x := by
  intro hx'
  obtain ⟨-, hcount⟩ := countOf_numberEvent hx
  obtain ⟨hg, hcount'⟩ := countOf_numberEvent hx'
  have hhead : (text ++ more).head? = text.head? := by
    cases text with
    | nil =>
      obtain rfl := Option.some.inj htext
      exact absurd hf Bool.false_ne_true
    | cons c text => rfl
  rw [hhead] at hcount'
  exact absurd (count_injective hcount hcount') (digitsValue_lt htext hf hmore hne hg).ne

/-! ### The four builders -/

section Builders

variable {R : JsonReader} {decode : List Byte → String} (hR : R.Reads decode) {chains : List Chain}
  (hwf : ∀ c ∈ chains, Chain.WF c) {v : Json} {b : List Byte} (hb : Document decode v b)
  (hp : JsonParser.body chains <+: b) {e : Error} (he : JsonParser.isHttpError e.code = false)

include hR hwf hb hp he

/-- **A symbology response**: the empty one is built from nothing. -/
theorem bestEffort_symbology :
    BestEffort R symbologyBuilder {} chains b e ↔ JsonParser.body chains ≠ [] := by
  constructor
  · intro h hnil
    have hresult := h.early hnil
    rw [interrupted_eq hwf he, hnil] at hresult
    exact absurd hresult nofun
  · intro hne
    refine bestEffort_of hR hwf hb hp he (fun hnil => absurd hnil hne) ?_
    intro w f text g more _ _ _ _ _ x hx
    rw [symbologyBuilder_scalar (scalar_numberEvent f text)] at hx
    rw [symbologyBuilder_scalar (scalar_numberEvent g _)]
    exact hx

/-- **A count**: a number that is cut is another number. -/
theorem bestEffort_count (missing : String) :
    BestEffort R (countBuilder missing) {} chains b e ↔ ¬CutNumber decode (JsonParser.body chains) b := by
  constructor
  · rintro h ⟨hle, hspace, minus, n, hn, hfits⟩
    obtain ⟨x, hx⟩ := Option.isSome_iff_exists.mp ((countOf_integerEvent_isSome minus n).mpr hfits)
    have hbuild := (build_countBuilder missing _ x).mpr hx
    have hwhole := h.sound x (by
      rw [interrupted_eq hwf he, if_pos hle, parsed_document hR hn]
      dsimp only [Json.events, List.foldl_cons, List.foldl_nil]
      rw [hbuild]
      exact List.mem_singleton_self _)
    rcases next_of_body hb hp hn with ⟨hspace', -⟩ | ⟨-, f, text, g, more, htext, hf, hne, hmore, -, hew, hev⟩
    · exact hspace hspace'
    · rw [parsed_document hR hb, hev] at hwhole
      rw [List.singleton_inj.mp hew] at hx
      exact countOf_ne htext hf hmore hne hx ((build_countBuilder missing _ x).mp hwhole)
  · intro hcut
    refine bestEffort_of hR hwf hb hp he (fun _ => ⟨missing, rfl⟩) ?_
    intro w f text g more hw hle hspace hew _ x hx
    obtain ⟨minus, n, rfl, hfits⟩ := integer_of_countOf hew ((build_countBuilder missing _ x).mp hx)
    exact absurd ⟨hle, hspace, minus, n, hw, hfits⟩ hcut

/-- **A range**: no number is one. -/
theorem bestEffort_datasetRange : BestEffort R datasetRangeBuilder {} chains b e := by
  refine bestEffort_of hR hwf hb hp he (fun _ => ⟨_, rfl⟩) ?_
  intro w f text g more _ _ _ _ _ x hx
  rw [datasetRangeBuilder_scalar (scalar_numberEvent f text)] at hx
  exact absurd hx nofun

end Builders

/-- **When a best-effort result is no invention**: for a symbology response, if some of the body has arrived; for
a count, if what has arrived is not the front of a longer number; for a range, always. -/
theorem best_effort_iff (R : JsonReader) (decode : List Byte → String) (hR : R.Reads decode) (chains : List Chain)
    (hwf : ∀ c ∈ chains, Chain.WF c) (v : Json) (b : List Byte) (hb : Document decode v b)
    (hp : JsonParser.body chains <+: b) (e : Error) (he : JsonParser.isHttpError e.code = false) :
    (BestEffort R symbologyBuilder {} chains b e ↔ JsonParser.body chains ≠ []) ∧
      (BestEffort R recordCountBuilder {} chains b e ↔ ¬CutNumber decode (JsonParser.body chains) b) ∧
      (BestEffort R billableSizeBuilder {} chains b e ↔ ¬CutNumber decode (JsonParser.body chains) b) ∧
      BestEffort R datasetRangeBuilder {} chains b e :=
  ⟨bestEffort_symbology hR hwf hb hp he, bestEffort_count hR hwf hb hp he _, bestEffort_count hR hwf hb hp he _,
    bestEffort_datasetRange hR hwf hb hp he⟩

/-! ### A count that is cut -/

open Classical in
/-- `Parse`, by the grammar. -/
noncomputable def grammarReader (decode : List Byte → String) : JsonReader where
  parse b :=
    if h : ∃ v, Document decode v b then (h.choose.events, none) else ([], some ⟨0, "Invalid value."⟩)

theorem grammarReader_reads (decode : List Byte → String) : (grammarReader decode).Reads decode where
  document v b h := by
    have hdoc : ∃ v, Document decode v b := ⟨v, h⟩
    rw [grammarReader]
    dsimp only
    rw [dif_pos hdoc, hdoc.choose_spec.unique h]
  other b h := by
    rw [grammarReader]
    dsimp only
    rw [dif_neg fun ⟨v, hv⟩ => h v hv]
    exact Option.some_ne_none _

/-- A digit string without a leading zero. -/
theorem document_int (decode : List Byte → String) (text : List Byte) (h : numberForm .start text = some .int) :
    Document decode (numberJson .int text) text := by
  have htext : Text decode (.elements [numberJson .int text]) ([] ++ text ++ []) :=
    .element nofun (.number h rfl) nofun
  rwa [List.nil_append, List.append_nil] at htext

/-- The first two bytes of a longer response. -/
def received : List Chain := [BufferChain.append id {} (Segment.ofBytes (ascii "12"))]

theorem wf_received : ∀ c ∈ received, Chain.WF c :=
  List.forall_mem_singleton.mpr (Chain.wf_appended (Chain.wf_empty none) _)

theorem body_received : JsonParser.body received = ascii "12" := by
  rw [JsonParser.body, received, List.flatMap_singleton, Chain.bytes_appended (Chain.wf_empty none)]
  rfl

/-- The error of a connection that breaks off. -/
def connectionLost : Error := { code := .connectionClosed, message := "connection lost" }

theorem best_effort_iff_cut :
    ¬BestEffort (grammarReader ofBytes) recordCountBuilder {} received (ascii "12345") connectionLost := by
  have h12 := document_int ofBytes (ascii "12") (by decide)
  have hbody : JsonParser.body received <+: ascii "12345" := by
    rw [body_received]
    decide
  have hcount := (best_effort_iff (grammarReader ofBytes) ofBytes (grammarReader_reads ofBytes) received wf_received
    _ _ (document_int ofBytes (ascii "12345") (by decide)) hbody connectionLost rfl).2.1
  rw [hcount, body_received]
  exact not_not.mpr ⟨by decide, by decide, false, 12, h12, by decide⟩

/-- An empty body is an empty result, and the count that has arrived is the count. -/
theorem not_best_effort :
    ¬BestEffort (grammarReader ofBytes) symbologyBuilder {} [] (ascii "[]") connectionLost ∧
      ¬BestEffort (grammarReader ofBytes) recordCountBuilder {} received (ascii "12345") connectionLost := by
  constructor
  · intro h
    exact absurd (h.early rfl) nofun
  · intro h
    have h12 := document_int ofBytes (ascii "12") (by decide)
    have h12345 := document_int ofBytes (ascii "12345") (by decide)
    have hwhole := h.sound 12 (by
      rw [interrupted_eq wf_received rfl, body_received, parsed_document (grammarReader_reads ofBytes) h12]
      decide)
    rw [parsed_document (grammarReader_reads ofBytes) h12345] at hwhole
    exact absurd hwhole (by decide)

end DbnPipe.Api
