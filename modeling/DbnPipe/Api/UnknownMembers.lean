import DbnPipe.Api.SymbologyReading

/-!
# Unknown members that break a response

The builder ignores the keys that it does not know, but not what is below them: every object that ends while
an interval is read ends the interval, and below the root a known key means what it means at the root.

* `read_inInterval` — after a value that contains an object the builder is **not in the interval** any more;
* `foldl_result` — whatever follows an object in an interval does not reach the map;
* `brokenInterval`, `symbolResponse`, `nestedPartial`, … — the responses that show it;
* `all_compute_iff` — **the open parts with which every response is computed**.
-/

namespace DbnPipe.Api

open Json

namespace SymbologyBuilder

/-! ### An object inside an interval -/

/-- The builder is in an interval after a value only if it was before, and the value contains no object. -/
theorem read_inInterval (v : Json) {b : SymbologyBuilder}
    (h : (read symbologyBuilder.handle b v).state = .inInterval) : b.state = .inInterval ∧ ObjectFree v := by
  induction v using Json.induct generalizing b with
  | null => exact ⟨h, .null⟩
  | bool t => exact ⟨h, .bool t⟩
  | decimal t => exact ⟨h, .decimal t⟩
  | integer minus n => exact ⟨(scalar_state b (scalar_integerEvent minus n)).symm.trans h, .integer minus n⟩
  | string t => exact ⟨(scalar_state b (.string t)).symm.trans h, .string t⟩
  | array vs ih =>
    have hend : ∀ s : State, s.endArray = .inInterval → s = .inInterval := by
      intro s hs
      cases s <;> first | rfl | exact absurd hs State.noConfusion
    have hall : ∀ c : SymbologyBuilder, (vs.foldl (read symbologyBuilder.handle) c).state = .inInterval →
        c.state = .inInterval ∧ ∀ v ∈ vs, ObjectFree v := by
      clear h
      induction vs with
      | nil => exact fun c hc => ⟨hc, fun v hv => absurd hv List.not_mem_nil⟩
      | cons v vs ihvs =>
        intro c hc
        obtain ⟨hv, hrest⟩ := ihvs (fun w hw => ih w (List.mem_cons_of_mem _ hw)) _ hc
        obtain ⟨hstate, hfree⟩ := ih v List.mem_cons_self hv
        exact ⟨hstate, List.forall_mem_cons.mpr ⟨hfree, hrest⟩⟩
    rw [read_array] at h
    obtain ⟨hstart, hfree⟩ := hall _ (hend _ ((onEndArray_state _).symm.trans h))
    refine ⟨?_, .array vs hfree⟩
    rcases b.onStartArray_state with hs | ⟨-, hs | hs⟩ | ⟨-, hs⟩
    · exact hs.symm.trans hstart
    · exact absurd (hs.symm.trans hstart) State.noConfusion
    · exact absurd (hs.symm.trans hstart) State.noConfusion
    · exact absurd (hs.symm.trans hstart) State.noConfusion
  | object ms ih =>
    rw [read_object] at h
    have hend : ∀ s : State, s.endObject ≠ .inInterval := by
      intro s
      cases s <;> exact State.noConfusion
    exact absurd ((onEndObject_state _).symm.trans h) (hend _)

/-- The builder without the two lists. -/
def mask (b : SymbologyBuilder) : SymbologyBuilder := { b with response.partials := [], response.notFound := [] }

/-- No event reads the lists. -/
theorem mask_handle (b : SymbologyBuilder) (e : SaxEvent) :
    mask (symbologyBuilder.handle b e) = mask (symbologyBuilder.handle (mask b) e) := by
  obtain ⟨state, key, symbol, i, ⟨result, l, l'⟩⟩ := b
  cases e with
  | null | bool | double => rfl
  | key k =>
    show mask (onKey k _) = mask (onKey k _)
    cases state <;> rfl
  | int v | int64 v =>
    show mask (onInt v _) = mask (onInt v _)
    by_cases hs : state = .inInterval ∧ key = "s"
    · simp only [onInt, mask, hs, and_self, if_true]
    · simp only [onInt, mask, hs, if_false]
  | uint v | uint64 v =>
    show mask (onUint v _) = mask (onUint v _)
    by_cases hs : state = .inInterval ∧ key = "s"
    · simp only [onUint, mask, hs, and_self, if_true]
    · simp only [onUint, mask, hs, if_false]
  | string v =>
    show mask (onString v _) = mask (onString v _)
    cases state with
    | inInterval =>
      by_cases h0 : key = "d0"
      · subst h0
        rfl
      by_cases h1 : key = "d1"
      · subst h1
        rfl
      by_cases h2 : key = "s"
      · subst h2
        rfl
      · simp only [onString, mask, h0, h1, h2, if_false]
    | _ => rfl
  | startObject =>
    show mask (onStartObject _) = mask (onStartObject _)
    cases state with
    | root => by_cases hk : key = "result" <;> simp only [onStartObject, mask, hk, if_true, if_false]
    | _ => rfl
  | endObject =>
    show mask (onEndObject _) = mask (onEndObject _)
    cases state with
    | inInterval =>
      cases hi : i.complete with
      | true => simp only [onEndObject, mask, hi, SymbologyResponse.push, if_true]
      | false => simp only [onEndObject, mask, hi, Bool.false_eq_true, if_false]
    | _ => rfl
  | startArray =>
    show mask (onStartArray _) = mask (onStartArray _)
    cases state with
    | root =>
      by_cases hp : key = "partial"
      · subst hp
        rfl
      by_cases hn : key = "not_found"
      · subst hn
        rfl
      · simp only [onStartArray, mask, hp, hn, if_false]
    | _ => rfl
  | endArray =>
    show mask (onEndArray _) = mask (onEndArray _)
    cases state <;> rfl

theorem mask_foldl {b c : SymbologyBuilder} (h : mask b = mask c) (es : List SaxEvent) :
    mask (es.foldl symbologyBuilder.handle b) = mask (es.foldl symbologyBuilder.handle c) := by
  induction es generalizing b c with
  | nil => exact h
  | cons e es ih => exact ih (by rw [mask_handle b, mask_handle c, h])

/-- **Outside an interval a string does not reach the map.** -/
theorem foldl_result {b : SymbologyBuilder} (hs : b.state ≠ .inInterval) (v v' : String) (es : List SaxEvent) :
    ((SaxEvent.string v :: es).foldl symbologyBuilder.handle b).response.result =
      ((SaxEvent.string v' :: es).foldl symbologyBuilder.handle b).response.result := by
  have hmask : ∀ w, mask (b.onString w) = mask b := by
    intro w
    rw [onString]
    split
    · exact absurd ‹_› hs
    · rfl
    · rfl
    · rfl
  have hfold := mask_foldl ((hmask v).trans (hmask v').symm) es
  have hresult : ∀ c : SymbologyBuilder, c.response.result = (mask c).response.result := fun _ => rfl
  rw [List.foldl_cons, List.foldl_cons, hresult, hresult (es.foldl _ _)]
  exact congrArg (fun c : SymbologyBuilder => c.response.result) hfold

end SymbologyBuilder

open SymbologyBuilder

/-! ### Responses that are broken -/

theorem unknown_key : "x" ∉ ["d0", "d1", "s"] := by decide

theorem unknown_rootKey : "x" ∉ ["result", "partial", "not_found"] := by decide

/-- An interval with an unknown member in front. -/
def brokenInterval (v : Json) (date : String) : List RootMember :=
  [.result [("A", [[.unknown "x" v unknown_key, .d0 date, .d1 "b", .s (.text "c")]])]]

/-- The builder in front of the unknown value. -/
def atUnknown : SymbologyBuilder :=
  { state := .inInterval, currentKey := "x", currentSymbol := "A" }

theorem read_brokenInterval (v : Json) (date : String) :
    read symbologyBuilder.handle {} (responseJson (brokenInterval v date)) =
      (SaxEvent.string date :: [.key "d1", .string "b", .key "s", .string "c", .endObject, .endArray, .endObject,
        .endObject]).foldl symbologyBuilder.handle
          (symbologyBuilder.handle (read symbologyBuilder.handle atUnknown v) (.key "d0")) := by
  have hevents : (responseJson (brokenInterval v date)).events =
      [.startObject, .key "result", .startObject, .key "A", .startArray, .startObject, .key "x"] ++ (v.events ++
        (.key "d0" :: .string date :: [.key "d1", .string "b", .key "s", .string "c", .endObject, .endArray,
          .endObject, .endObject])) := by
    simp [responseJson, brokenInterval, RootMember.member, intervalJson, Field.member, SymbolValue.json, events,
      memberEvents, elementEvents]
  show (responseJson (brokenInterval v date)).events.foldl symbologyBuilder.handle {} = _
  rw [hevents, List.foldl_append, List.foldl_append]
  rfl

/-- **An unknown value with an object** breaks the interval. -/
theorem not_computes_interval {v : Json} (hv : ¬ObjectFree v) :
    ¬∀ date, date ≠ "" → Computes (brokenInterval v date) := by
  intro h
  have hmap : ∀ date, date ≠ "" → (read symbologyBuilder.handle {}
      (responseJson (brokenInterval v date))).response.result.lookup "A" = some [⟨date, "b", "c"⟩] := by
    intro date hdate
    obtain ⟨-, r, hr, -, -, hlookup⟩ := h date hdate
    obtain rfl := Except.ok.inj hr
    have hcomplete : (⟨date, "b", "c"⟩ : SymbolInterval).complete = true := by
      simp [SymbolInterval.complete, hdate]
    have hintervals : intervals (brokenInterval v date) "A" = [⟨date, "b", "c"⟩] := by
      show List.filter SymbolInterval.complete [⟨date, "b", "c"⟩] ++ [] ++ [] = _
      rw [List.filter_cons_of_pos hcomplete]
      rfl
    rw [hlookup "A", hintervals]
    rfl
  have hstate : (symbologyBuilder.handle (read symbologyBuilder.handle atUnknown v) (.key "d0")).state ≠
      .inInterval := by
    rw [key_state]
    exact fun hs => hv (read_inInterval v hs).2
  have hsame := hmap "1" (by decide)
  rw [read_brokenInterval, foldl_result hstate "1" "2", ← read_brokenInterval, hmap "2" (by decide)] at hsame
  exact absurd hsame (by decide)

/-- An interval with this symbol. -/
def symbolResponse (v : SymbolValue) : List RootMember := [.result [("A", [[.d0 "a", .d1 "b", .s v]])]]

theorem events_of_not_integral {v : SymbolValue} (hv : ¬v.Integral) : ∃ d, v.json.events = [.double d] := by
  cases v with
  | text t => exact absurd trivial hv
  | decimal literal nonempty => exact ⟨literal, rfl⟩
  | integer minus n =>
    cases minus with
    | true =>
      have hn : ¬n ≤ 2 ^ 63 := hv
      have hn' : ¬n ≤ 2 ^ 31 := fun h => hn (h.trans (by decide))
      exact ⟨_, congrArg (fun e => [e]) ((if_pos rfl).trans ((if_neg hn').trans (if_neg hn)))⟩
    | false =>
      have hn : ¬n < 2 ^ 64 := hv
      have hn' : ¬n < 2 ^ 32 := fun h => hn (h.trans (by decide))
      exact ⟨_, congrArg (fun e => [e]) ((if_neg Bool.false_ne_true).trans ((if_neg hn').trans (if_neg hn)))⟩

theorem symbol_ne_empty {v : SymbolValue} (hv : ¬v.Integral) : v.symbol ≠ "" := by
  cases v with
  | text t => exact absurd trivial hv
  | decimal literal nonempty => exact nonempty
  | integer minus n =>
    cases minus with
    | false => exact Nat.repr_ne_empty
    | true =>
      show toString (-(n : ℤ)) ≠ ""
      rw [Int.toString_eq_repr, Int.repr_eq_if]
      split
      · exact Nat.repr_ne_empty
      · exact fun h => Nat.repr_ne_empty (String.append_eq_empty_iff.mp h).2

/-- The events of the response up to the symbol, and those behind it. -/
def beforeSymbol : List SaxEvent :=
  [.startObject, .key "result", .startObject, .key "A", .startArray, .startObject, .key "d0", .string "a",
    .key "d1", .string "b", .key "s"]

def behindSymbol : List SaxEvent := [.endObject, .endArray, .endObject, .endObject]

theorem events_symbolResponse (v : SymbolValue) :
    (responseJson (symbolResponse v)).events = beforeSymbol ++ (v.json.events ++ behindSymbol) := by
  simp [responseJson, symbolResponse, RootMember.member, intervalJson, Field.member, events, memberEvents,
    elementEvents, beforeSymbol, behindSymbol]

/-- **A symbol that is a floating-point number** is not recorded. -/
theorem not_computes_symbol {v : SymbolValue} (hv : ¬v.Integral) : ¬Computes (symbolResponse v) := by
  rintro ⟨-, r, hr, -, -, hlookup⟩
  obtain rfl := Except.ok.inj hr
  obtain ⟨d, hd⟩ := events_of_not_integral hv
  have hcomplete : (⟨"a", "b", v.symbol⟩ : SymbolInterval).complete = true := by
    simp [SymbolInterval.complete, symbol_ne_empty hv]
  have hintervals : intervals (symbolResponse v) "A" = [⟨"a", "b", v.symbol⟩] := by
    show List.filter SymbolInterval.complete [⟨"a", "b", v.symbol⟩] ++ [] ++ [] = _
    rw [List.filter_cons_of_pos hcomplete]
    rfl
  have hread : (Json.read symbologyBuilder.handle {} (responseJson (symbolResponse v))).response.result.lookup "A" =
      none := by
    rw [Json.read, events_symbolResponse, hd]
    rfl
  have hmap := hlookup "A"
  rw [hread, hintervals] at hmap
  exact absurd hmap (Option.some_ne_none _).symm

/-- Known keys below an unknown one. -/
def nestedPartial : List RootMember := [.unknown "x" (.object [("partial", .array [.string "y"])]) unknown_rootKey]

def nestedNotFound : List RootMember :=
  [.unknown "x" (.object [("not_found", .array [.string "y"])]) unknown_rootKey]

def nestedResult : List RootMember :=
  [.unknown "x" (.object [("result", .object [("d0", .array [.object [("d0", .string "a"), ("d1", .string "b"),
    ("s", .string "c")]])])]) unknown_rootKey]

theorem not_computes_partial : ¬Computes nestedPartial := by
  rintro ⟨-, r, hr, hpartials, -⟩
  obtain rfl := Except.ok.inj hr
  exact absurd hpartials (by decide)

theorem not_computes_notFound : ¬Computes nestedNotFound := by
  rintro ⟨-, r, hr, -, hnotFound, -⟩
  obtain rfl := Except.ok.inj hr
  exact absurd hnotFound (by decide)

theorem not_computes_result : ¬Computes nestedResult := by
  rintro ⟨-, r, hr, -, -, hlookup⟩
  obtain rfl := Except.ok.inj hr
  exact absurd (hlookup "d0") (by decide)

/-! ### The exact condition -/

/-- A response with one interval carries what its fields do. -/
theorem carries_single {U : Set Json} {S : Set SymbolValue} {K : Set String} {symbol : String} {fields : List Field}
    (hunknown : ∀ key v other, .unknown key v other ∈ fields → v ∈ U)
    (hsymbol : ∀ v, .s v ∈ fields → v ∈ S ∨ ∃ t, v = .text t) : Carries U S K [.result [(symbol, [fields])]] := by
  intro m hm
  obtain rfl := List.mem_singleton.mp hm
  intro s hs
  obtain rfl := List.mem_singleton.mp hs
  intro fields' hfields
  obtain rfl := List.mem_singleton.mp hfields
  intro f hf
  cases f with
  | d0 | d1 => trivial
  | s v => exact hsymbol v hf
  | unknown key v other => exact hunknown key v other hf

theorem carries_interval {U : Set Json} {S : Set SymbolValue} {K : Set String} {v : Json} (hv : v ∈ U)
    (date : String) : Carries U S K (brokenInterval v date) := by
  refine carries_single (fun key w other hw => ?_) fun w hw => Or.inr ⟨"c", ?_⟩
  · simp only [List.mem_cons, Field.unknown.injEq, reduceCtorEq, List.not_mem_nil, or_false] at hw
    obtain ⟨-, rfl⟩ := hw
    exact hv
  · simpa using hw

theorem carries_symbol {U : Set Json} {S : Set SymbolValue} {K : Set String} {v : SymbolValue} (hv : v ∈ S) :
    Carries U S K (symbolResponse v) := by
  refine carries_single (fun key w other hw => ?_) fun w hw => Or.inl ?_
  · simp at hw
  · have hw' : w = v := by simpa using hw
    exact hw' ▸ hv

/-- A response with one unknown member. -/
theorem carries_unknown {U : Set Json} {S : Set SymbolValue} {K : Set String} {key : String} {v : Json}
    {other : key ∉ ["result", "partial", "not_found"]} (hv : ∀ k, Uses k v → k ∈ K) :
    Carries U S K [.unknown key v other] := by
  rintro m hm
  obtain rfl := List.mem_singleton.mp hm
  exact hv

/-- What the builder needs of the open parts. -/
theorem Carries.admissible {U : Set Json} {S : Set SymbolValue} {K : Set String} {members : List RootMember}
    (h : Carries U S K members) (hU : ∀ v ∈ U, ObjectFree v) (hS : ∀ v ∈ S, v.Integral) :
    ∀ m ∈ members, Admissible K m := by
  intro m hm
  have hopen := h m hm
  cases m with
  | result symbols =>
    intro s hs fields hfields f hf
    have hfield := hopen s hs fields hfields f hf
    cases f with
    | d0 | d1 => trivial
    | s value =>
      rcases hfield with hS' | ⟨t, rfl⟩
      · exact hS value hS'
      · trivial
    | unknown key value other => exact hU value hfield
  | partials | notFound => trivial
  | unknown key value other => exact hopen

/-- **When the builder computes all responses**: every response with these open parts is computed, just if no
unknown value of an interval contains an object, no symbol is a floating-point number, and below the unknown keys
of the root neither `partial` nor `not_found` is used, nor all of `result`, `d0`, `d1` and `s`. -/
theorem all_compute_iff (U : Set Json) (S : Set SymbolValue) (K : Set String) :
    (∀ members, Carries U S K members → Computes members) ↔
      (∀ v ∈ U, ObjectFree v) ∧ (∀ v ∈ S, v.Integral) ∧ Harmless K := by
  constructor
  · intro h
    refine ⟨fun v hv => ?_, fun v hv => ?_, fun hp => ?_, fun hn => ?_, fun hr => ?_⟩
    · by_contra hfree
      exact not_computes_interval hfree fun date _ => h _ (carries_interval hv date)
    · by_contra hint
      exact not_computes_symbol hint (h _ (carries_symbol hv))
    · refine not_computes_partial (h _ (carries_unknown fun k hk => ?_))
      obtain rfl : "partial" = k := by simpa using hk
      exact hp
    · refine not_computes_notFound (h _ (carries_unknown fun k hk => ?_))
      obtain rfl : "not_found" = k := by simpa using hk
      exact hn
    · refine not_computes_result (h _ (carries_unknown fun k hk => hr ?_))
      have hused : "result" = k ∨ "d0" = k ∨ "d0" = k ∨ "d1" = k ∨ "s" = k := by simpa using hk
      rcases hused with rfl | rfl | rfl | rfl | rfl <;> simp
  · rintro ⟨hU, hS, hK⟩ members hm
    exact computes hK (hm.admissible hU hS)

end DbnPipe.Api
