import DbnPipe.Api.SymbologyBuilder
import Mathlib.Data.Set.Insert

/-!
# What SymbologyBuilder makes of a response

A symbology response, its members in any order and with unknown members that carry any value, and what the
builder has read of it at the end.

* `Field`, `RootMember` — the members of an interval and of the response;
* `interval`, `intervals`, `partials`, `notFound` — **what the response says**;
* `Computes` — the builder ends in `Root` and returns just that;
* `settles` — no value leaves the builder deeper than it was, so that it always comes back to `Root`;
* `computes` — a response is computed **where its unknown members are harmless**.
-/

namespace DbnPipe.Api

open Json

/-- The value of `s`: a string, or a number. -/
inductive SymbolValue where
  | text (s : String)
  | integer (minus : Bool) (n : ℕ)
  | decimal (literal : String) (nonempty : literal ≠ "")

/-- A member of an interval object. -/
inductive Field where
  | d0 (value : String)
  | d1 (value : String)
  | s (value : SymbolValue)
  | unknown (key : String) (value : Json) (other : key ∉ ["d0", "d1", "s"])

/-- A member of a response. -/
inductive RootMember where
  | result (symbols : List (String × List (List Field)))
  | partials (symbols : List String)
  | notFound (symbols : List String)
  | unknown (key : String) (value : Json) (other : key ∉ ["result", "partial", "not_found"])

/-! ### The document -/

/-- The value, as JSON. -/
def SymbolValue.json : SymbolValue → Json
  | .text s => .string s
  | .integer minus n => .integer minus n
  | .decimal literal _ => .decimal literal

/-- The value as a symbol: a number in decimal. -/
def SymbolValue.symbol : SymbolValue → String
  | .text s => s
  | .integer minus n => if minus then toString (-(n : ℤ)) else toString n
  | .decimal literal _ => literal

/-- The member of the JSON object. -/
def Field.member : Field → String × Json
  | .d0 value => ("d0", .string value)
  | .d1 value => ("d1", .string value)
  | .s value => ("s", value.json)
  | .unknown key value _ => (key, value)

/-- The interval object. -/
def intervalJson (fields : List Field) : Json := .object (fields.map Field.member)

/-- The member of the JSON object. -/
def RootMember.member : RootMember → String × Json
  | .result symbols => ("result", .object (symbols.map fun s => (s.1, .array (s.2.map intervalJson))))
  | .partials symbols => ("partial", .array (symbols.map .string))
  | .notFound symbols => ("not_found", .array (symbols.map .string))
  | .unknown key value _ => (key, value)

/-- The response. -/
def responseJson (members : List RootMember) : Json := .object (members.map RootMember.member)

/-! ### What it says -/

/-- What a member makes of an interval. -/
def Field.set (i : SymbolInterval) : Field → SymbolInterval
  | .d0 value => { i with startDate := value }
  | .d1 value => { i with endDate := value }
  | .s value => { i with symbol := value.symbol }
  | .unknown _ _ _ => i

/-- The interval of an interval object: **the last occurrence of a key wins**. -/
def interval (fields : List Field) : SymbolInterval := fields.foldl Field.set {}

/-- The intervals of some interval objects: those with all three fields, in order. -/
def completeIntervals (objects : List (List Field)) : List SymbolInterval :=
  (objects.map interval).filter SymbolInterval.complete

/-- The intervals given to a symbol. -/
def intervals (members : List RootMember) (symbol : String) : List SymbolInterval :=
  members.flatMap fun
    | .result symbols => symbols.flatMap fun s => if s.1 = symbol then completeIntervals s.2 else []
    | _ => []

/-- The symbols in `partial`. -/
def partials (members : List RootMember) : List String :=
  members.flatMap fun
    | .partials symbols => symbols
    | _ => []

/-- The symbols in `not_found`. -/
def notFound (members : List RootMember) : List String :=
  members.flatMap fun
    | .notFound symbols => symbols
    | _ => []

/-- An entry of the map: there is none for an empty list. -/
def entry (l : List SymbolInterval) : Option (List SymbolInterval) := if l = [] then none else some l

/-- **The builder computes the response**: it ends in `Root`, and returns what the response says. -/
def Computes (members : List RootMember) : Prop :=
  (read symbologyBuilder.handle {} (responseJson members)).state = .root ∧
    ∃ r, (read symbologyBuilder.handle {} (responseJson members)).build = .ok r ∧
      r.partials = partials members ∧ r.notFound = notFound members ∧
      ∀ symbol, r.result.lookup symbol = entry (intervals members symbol)

/-- What is open in a response: the unknown values of its intervals are in `U`, the numbers that are symbols in
`S`, and the unknown values at its root use, at any depth, keys in `K`. -/
def Carries (U : Set Json) (S : Set SymbolValue) (K : Set String) (members : List RootMember) : Prop :=
  ∀ m ∈ members, match m with
    | .result symbols => ∀ s ∈ symbols, ∀ fields ∈ s.2, ∀ f ∈ fields, match f with
      | .unknown _ value _ => value ∈ U
      | .s value => value ∈ S ∨ ∃ t, value = .text t
      | _ => True
    | .unknown _ value _ => ∀ k, Uses k value → k ∈ K
    | _ => True

/-- A number that is reported as an integer. -/
def SymbolValue.Integral : SymbolValue → Prop
  | .text _ => True
  | .integer minus n => if minus then n ≤ 2 ^ 63 else n < 2 ^ 64
  | .decimal _ _ => False

/-- An unknown member carries no object, and a symbol is not a floating-point number. -/
def Field.Plain : Field → Prop
  | .unknown _ value _ => ObjectFree value
  | .s value => value.Integral
  | _ => True

/-! ### The state after a value -/

namespace SymbologyBuilder

/-- How deep a state is. -/
def State.depth : State → ℕ
  | .root => 0
  | .inResult | .inPartialArray | .inNotFoundArray => 1
  | .inSymbolArray => 2
  | .inInterval => 3

/-- The same state, or one less deep. -/
def State.Settles (s t : State) : Prop := t = s ∨ t.depth < s.depth

theorem State.Settles.refl (s : State) : s.Settles s := Or.inl rfl

theorem State.Settles.trans {s t u : State} (h : s.Settles t) (h' : t.Settles u) : s.Settles u := by
  rcases h with rfl | h
  · exact h'
  · rcases h' with rfl | h'
    · exact Or.inr h
    · exact Or.inr (h'.trans h)

/-- A scalar does not move the state. -/
theorem scalar_state (b : SymbologyBuilder) {e : SaxEvent} (he : Scalar e) :
    (symbologyBuilder.handle b e).state = b.state := by
  cases he with
  | null | bool | double => rfl
  | int i | int64 i =>
    show (b.onInt i).state = b.state
    rw [onInt]
    split <;> rfl
  | uint u | uint64 u =>
    show (b.onUint u).state = b.state
    rw [onUint]
    split <;> rfl
  | string v =>
    show (b.onString v).state = b.state
    rw [onString]
    split
    · split_ifs <;> rfl
    · rfl
    · rfl
    · rfl

theorem key_state (b : SymbologyBuilder) (k : String) : (symbologyBuilder.handle b (.key k)).state = b.state := by
  show (b.onKey k).state = b.state
  rw [onKey]
  dsimp only
  split <;> rfl

/-- The state after the end of an object, and of an array. -/
def State.endObject : State → State
  | .inInterval => .inSymbolArray
  | .inResult => .root
  | s => s

def State.endArray : State → State
  | .inSymbolArray => .inResult
  | .inPartialArray | .inNotFoundArray => .root
  | s => s

theorem onEndObject_state (b : SymbologyBuilder) : b.onEndObject.state = b.state.endObject := by
  obtain ⟨state, _, _, _, _⟩ := b
  cases state <;> rfl

theorem onEndArray_state (b : SymbologyBuilder) : b.onEndArray.state = b.state.endArray := by
  obtain ⟨state, _, _, _, _⟩ := b
  cases state <;> rfl

/-- What the start of an object does to the state. -/
theorem onStartObject_state (b : SymbologyBuilder) : b.onStartObject.state = b.state ∨
    b.state = .root ∧ b.onStartObject.state = .inResult ∨
    b.state = .inSymbolArray ∧ b.onStartObject.state = .inInterval := by
  rw [onStartObject]
  split
  · rename_i hs
    split
    · exact Or.inr (Or.inl ⟨hs, rfl⟩)
    · exact Or.inl rfl
  · rename_i hs
    exact Or.inr (Or.inr ⟨hs, rfl⟩)
  · exact Or.inl rfl

theorem onStartArray_state (b : SymbologyBuilder) : b.onStartArray.state = b.state ∨
    b.state = .root ∧ (b.onStartArray.state = .inPartialArray ∨ b.onStartArray.state = .inNotFoundArray) ∨
    b.state = .inResult ∧ b.onStartArray.state = .inSymbolArray := by
  rw [onStartArray]
  split
  · rename_i hs
    split_ifs
    · exact Or.inr (Or.inl ⟨hs, Or.inl rfl⟩)
    · exact Or.inr (Or.inl ⟨hs, Or.inr rfl⟩)
    · exact Or.inl rfl
  · rename_i hs
    exact Or.inr (Or.inr ⟨hs, rfl⟩)
  · exact Or.inl rfl

/-- Over the states: what has settled in an object settles as it ends. -/
theorem State.settles_endObject : ∀ s t : State, (s.Settles t → s.Settles t.endObject) ∧
    (State.inResult.Settles t → State.root.Settles t.endObject) ∧
    (State.inInterval.Settles t → State.inSymbolArray.Settles t.endObject) := by
  intro s t
  cases s <;> cases t <;> simp [State.Settles, State.depth, State.endObject]

theorem State.settles_endArray : ∀ s t : State, (s.Settles t → s.Settles t.endArray) ∧
    (State.inPartialArray.Settles t ∨ State.inNotFoundArray.Settles t → State.root.Settles t.endArray) ∧
    (State.inSymbolArray.Settles t → State.inResult.Settles t.endArray) := by
  intro s t
  cases s <;> cases t <;> simp [State.Settles, State.depth, State.endArray]

theorem settles_object {b c : SymbologyBuilder} (h : b.onStartObject.state.Settles c.state) :
    b.state.Settles c.onEndObject.state := by
  obtain ⟨hsame, hresult, hinterval⟩ := State.settles_endObject b.state c.state
  rw [onEndObject_state]
  rcases b.onStartObject_state with hs | ⟨hs, hstart⟩ | ⟨hs, hstart⟩
  · exact hsame (hs ▸ h)
  · exact hs ▸ hresult (hstart ▸ h)
  · exact hs ▸ hinterval (hstart ▸ h)

theorem settles_array {b c : SymbologyBuilder} (h : b.onStartArray.state.Settles c.state) :
    b.state.Settles c.onEndArray.state := by
  obtain ⟨hsame, hroot, hresult⟩ := State.settles_endArray b.state c.state
  rw [onEndArray_state]
  rcases b.onStartArray_state with hs | ⟨hs, hstart | hstart⟩ | ⟨hs, hstart⟩
  · exact hsame (hs ▸ h)
  · exact hs ▸ hroot (Or.inl (hstart ▸ h))
  · exact hs ▸ hroot (Or.inr (hstart ▸ h))
  · exact hs ▸ hresult (hstart ▸ h)

/-- **No value leaves the builder deeper than it was.** -/
theorem settles (b : SymbologyBuilder) (v : Json) : b.state.Settles (read symbologyBuilder.handle b v).state := by
  induction v using Json.induct generalizing b with
  | null | bool | decimal => exact .refl _
  | integer minus n => exact Or.inl (scalar_state b (scalar_integerEvent minus n))
  | string t => exact Or.inl (scalar_state b (.string t))
  | array vs ih =>
    rw [read_array]
    refine settles_array (List.foldlRecOn (motive := fun c : SymbologyBuilder => b.onStartArray.state.Settles c.state)
      vs _ (.refl _) fun c hc v hv => ?_)
    exact hc.trans (ih v hv c)
  | object ms ih =>
    rw [read_object]
    refine settles_object (List.foldlRecOn (motive := fun c : SymbologyBuilder => b.onStartObject.state.Settles c.state)
      ms _ (.refl _) fun c hc m hm => ?_)
    have hmember := ih m hm (symbologyBuilder.handle c (.key m.1))
    rw [key_state] at hmember
    exact hc.trans hmember

/-! ### Known members -/

/-- An interval is saved, if it is complete. -/
def save (symbol : String) (r : SymbologyResponse) (i : SymbolInterval) : SymbologyResponse :=
  if i.complete then r.push symbol i else r

variable {b : SymbologyBuilder}

theorem handle_key (hs : b.state ≠ .inResult) (k : String) :
    symbologyBuilder.handle b (.key k) = { b with currentKey := k } := by
  show b.onKey k = _
  rw [onKey]
  exact if_neg hs

/-- Below an unknown key of an interval, whatever is not an object is ignored. -/
theorem read_objectFree (hs : b.state = .inInterval) (hk : b.currentKey ∉ ["d0", "d1", "s"]) {v : Json}
    (h : ObjectFree v) : read symbologyBuilder.handle b v = b := by
  rw [List.mem_cons, List.mem_pair, not_or, not_or] at hk
  obtain ⟨h0, h1, h2⟩ := hk
  refine read_of_objectFree h fun e he => ?_
  rcases he with he | rfl | rfl
  · cases he with
    | null | bool | double => rfl
    | int i | int64 i => exact if_neg fun hc => h2 hc.2
    | uint u | uint64 u => exact if_neg fun hc => h2 hc.2
    | string t =>
      show b.onString t = b
      rw [onString, hs]
      dsimp only
      rw [if_neg h0, if_neg h1, if_neg h2]
  · show b.onStartArray = b
    rw [onStartArray, hs]
  · show b.onEndArray = b
    rw [onEndArray, hs]

/-- The value of `s`. -/
theorem read_symbolValue (hs : b.state = .inInterval) (hk : b.currentKey = "s") {v : SymbolValue} (hv : v.Integral) :
    read symbologyBuilder.handle b v.json = { b with currentInterval.symbol := v.symbol } := by
  cases v with
  | text t =>
    show b.onString t = _
    rw [onString, hs, hk]
    rfl
  | decimal literal nonempty => exact hv.elim
  | integer minus n =>
    show symbologyBuilder.handle b (integerEvent minus n) = _
    cases minus with
    | true =>
      have hn : n ≤ 2 ^ 63 := hv
      have hevent : integerEvent true n = .int (-n) ∨ integerEvent true n = .int64 (-n) := by
        rw [integerEvent, if_pos rfl, if_pos hn]
        exact ite_eq_or_eq _ _ _
      rcases hevent with he | he
      all_goals
        rw [he]
        exact if_pos ⟨hs, hk⟩
    | false =>
      have hn : n < 2 ^ 64 := hv
      have hevent : integerEvent false n = .uint n ∨ integerEvent false n = .uint64 n := by
        rw [integerEvent, if_neg Bool.false_ne_true, if_pos hn]
        exact ite_eq_or_eq _ _ _
      rcases hevent with he | he
      all_goals
        rw [he]
        exact if_pos ⟨hs, hk⟩

/-- **A member of an interval.** -/
theorem readMember_field (hs : b.state = .inInterval) {f : Field} (hf : f.Plain) :
    readMember symbologyBuilder.handle b f.member =
      { b with currentKey := f.member.1, currentInterval := f.set b.currentInterval } := by
  have hne : b.state ≠ .inResult := by
    rw [hs]
    exact State.noConfusion
  rw [readMember, handle_key hne]
  cases f with
  | d0 value =>
    show onString value { b with currentKey := "d0" } = _
    rw [onString]
    dsimp only
    rw [hs]
    rfl
  | d1 value =>
    show onString value { b with currentKey := "d1" } = _
    rw [onString]
    dsimp only
    rw [hs]
    rfl
  | s value => exact read_symbolValue (b := { b with currentKey := "s" }) hs rfl hf
  | unknown key value other => exact read_objectFree (b := { b with currentKey := key }) hs other hf

theorem foldl_fields (hs : b.state = .inInterval) {fields : List Field} (hf : ∀ f ∈ fields, f.Plain) :
    ∃ key, (fields.map Field.member).foldl (readMember symbologyBuilder.handle) b =
      { b with currentKey := key, currentInterval := fields.foldl Field.set b.currentInterval } := by
  induction fields generalizing b with
  | nil => exact ⟨b.currentKey, rfl⟩
  | cons f fields ih =>
    rw [List.map_cons, List.foldl_cons, readMember_field hs (hf f List.mem_cons_self)]
    exact ih hs fun g hg => hf g (List.mem_cons_of_mem _ hg)

/-- **An interval object** saves its interval. -/
theorem read_interval (hs : b.state = .inSymbolArray) {fields : List Field} (hf : ∀ f ∈ fields, f.Plain) :
    ∃ key i, read symbologyBuilder.handle b (intervalJson fields) =
      { b with
        currentKey := key
        currentInterval := i
        response := save b.currentSymbol b.response (interval fields) } := by
  have hstart : symbologyBuilder.handle b .startObject = { b with state := .inInterval, currentInterval := {} } := by
    show b.onStartObject = _
    rw [onStartObject, hs]
  rw [intervalJson, read_object, hstart]
  obtain ⟨key, hfields⟩ := foldl_fields (b := { b with state := .inInterval, currentInterval := {} }) rfl hf
  rw [hfields]
  refine ⟨key, interval fields, ?_⟩
  rw [hs]
  rfl

theorem foldl_intervals (hs : b.state = .inSymbolArray) {objects : List (List Field)}
    (hf : ∀ fields ∈ objects, ∀ f ∈ fields, f.Plain) :
    ∃ key i, (objects.map intervalJson).foldl (read symbologyBuilder.handle) b =
      { b with
        currentKey := key
        currentInterval := i
        response := (objects.map interval).foldl (save b.currentSymbol) b.response } := by
  induction objects generalizing b with
  | nil => exact ⟨b.currentKey, b.currentInterval, rfl⟩
  | cons fields objects ih =>
    obtain ⟨key, i, hread⟩ := read_interval hs (hf fields List.mem_cons_self)
    rw [List.map_cons, List.foldl_cons, hread]
    exact ih hs fun fields hfields => hf fields (List.mem_cons_of_mem _ hfields)

/-- What the array of a symbol makes of the response. -/
def saveSymbol (r : SymbologyResponse) (s : String × List (List Field)) : SymbologyResponse :=
  (s.2.map interval).foldl (save s.1) r

/-- **A symbol** in the result. -/
theorem readMember_symbol (hs : b.state = .inResult) {s : String × List (List Field)}
    (hf : ∀ fields ∈ s.2, ∀ f ∈ fields, f.Plain) :
    ∃ key symbol i, readMember symbologyBuilder.handle b (s.1, .array (s.2.map intervalJson)) =
      { b with
        currentKey := key
        currentSymbol := symbol
        currentInterval := i
        response := saveSymbol b.response s } := by
  have hkey : symbologyBuilder.handle b (.key s.1) = { b with currentKey := s.1, currentSymbol := s.1 } := by
    show b.onKey s.1 = _
    rw [onKey]
    exact if_pos hs
  have hstart : symbologyBuilder.handle { b with currentKey := s.1, currentSymbol := s.1 } .startArray =
      { b with currentKey := s.1, currentSymbol := s.1, state := .inSymbolArray } := by
    show onStartArray _ = _
    rw [onStartArray]
    dsimp only
    rw [hs]
  rw [readMember, hkey, read_array, hstart]
  obtain ⟨key, i, hread⟩ := foldl_intervals
    (b := { b with currentKey := s.1, currentSymbol := s.1, state := .inSymbolArray }) rfl hf
  rw [hread]
  refine ⟨key, s.1, i, ?_⟩
  rw [hs]
  rfl

theorem foldl_symbols (hs : b.state = .inResult) {symbols : List (String × List (List Field))}
    (hf : ∀ s ∈ symbols, ∀ fields ∈ s.2, ∀ f ∈ fields, f.Plain) :
    ∃ key symbol i, (symbols.map fun s => (s.1, Json.array (s.2.map intervalJson))).foldl
        (readMember symbologyBuilder.handle) b =
      { b with
        currentKey := key
        currentSymbol := symbol
        currentInterval := i
        response := symbols.foldl saveSymbol b.response } := by
  induction symbols generalizing b with
  | nil => exact ⟨b.currentKey, b.currentSymbol, b.currentInterval, rfl⟩
  | cons s symbols ih =>
    obtain ⟨key, symbol, i, hread⟩ := readMember_symbol hs (hf s List.mem_cons_self)
    rw [List.map_cons, List.foldl_cons, hread]
    exact ih hs fun s hmem => hf s (List.mem_cons_of_mem _ hmem)

/-! ### Unknown members of the root -/

/-- The keys with which nothing is recorded below an unknown key of the root. -/
structure Harmless (K : Set String) : Prop where
  partials : "partial" ∉ K
  notFound : "not_found" ∉ K
  fields : ¬({"result", "d0", "d1", "s"} ⊆ K)

/-- A field of the interval is missing, and its key is not used. -/
def Missing (K : Set String) (i : SymbolInterval) : Prop :=
  i.startDate = "" ∧ "d0" ∉ K ∨ i.endDate = "" ∧ "d1" ∉ K ∨ i.symbol = "" ∧ "s" ∉ K

theorem Missing.incomplete {K : Set String} {i : SymbolInterval} (h : Missing K i) : i.complete = false := by
  rcases h with ⟨h, -⟩ | ⟨h, -⟩ | ⟨h, -⟩ <;> simp [SymbolInterval.complete, h]

/-- Inside the unknown member `k` of the root nothing has been recorded so far. -/
structure Blank (K : Set String) (k : String) (r : SymbologyResponse) (b : SymbologyBuilder) : Prop where
  response : b.response = r
  key : b.state = .root ∧ b.currentKey = k ∨ b.currentKey ∈ K
  state : b.state = .root ∨ "result" ∈ K ∧ b.state ≠ .inPartialArray ∧ b.state ≠ .inNotFoundArray
  interval : b.state = .inInterval → Missing K b.currentInterval

theorem Harmless.missing {K : Set String} (h : Harmless K) (hresult : "result" ∈ K) : Missing K {} := by
  by_contra hmissing
  rw [Missing, not_or, not_or] at hmissing
  refine h.fields ?_
  rintro k (rfl | rfl | rfl | rfl)
  · exact hresult
  · exact not_not.mp fun hk => hmissing.1 ⟨rfl, hk⟩
  · exact not_not.mp fun hk => hmissing.2.1 ⟨rfl, hk⟩
  · exact not_not.mp fun hk => hmissing.2.2 ⟨rfl, hk⟩

section Blank

variable {K : Set String} {k : String} {r : SymbologyResponse}

theorem Blank.used (h : Blank K k r b) (hs : b.state ≠ .root) : b.currentKey ∈ K :=
  h.key.resolve_left fun hroot => hs hroot.1

/-- Below the root a used key is current, of a response with a used `result`. -/
theorem Blank.below (h : Blank K k r b) {s : State} (hs : b.state = s) (hroot : s ≠ .root) :
    b.currentKey ∈ K ∧ "result" ∈ K := by
  have hne : b.state ≠ .root := by
    rw [hs]
    exact hroot
  exact ⟨h.used hne, (h.state.resolve_left hne).1⟩

/-- A key that is not used, and not the key of the member. -/
theorem Blank.key_ne (h : Blank K k r b) {k' : String} (hk : k ≠ k') (hK : k' ∉ K) : b.currentKey ≠ k' := by
  rintro rfl
  rcases h.key with ⟨-, heq⟩ | hmem
  · exact hk heq.symm
  · exact hK hmem

theorem Blank.onKey (h : Blank K k r b) {k' : String} (hk' : k' ∈ K) :
    Blank K k r (symbologyBuilder.handle b (.key k')) := by
  show Blank K k r (b.onKey k')
  rw [SymbologyBuilder.onKey]
  dsimp only
  split
  · exact ⟨h.response, Or.inr hk', h.state, h.interval⟩
  · exact ⟨h.response, Or.inr hk', h.state, h.interval⟩

/-- A field is set below its own key, which is used. -/
theorem Blank.set (h : Blank K k r b) (hs : b.state = .inInterval) {i : SymbolInterval}
    (hi : b.currentKey ∈ K → Missing K b.currentInterval → Missing K i) :
    Blank K k r { b with currentInterval := i } := by
  exact ⟨h.response, h.key, h.state, fun _ => hi (h.below hs State.noConfusion).1 (h.interval hs)⟩

theorem Blank.setSymbol (h : Blank K k r b) (hs : b.state = .inInterval) (hkey : b.currentKey = "s") (v : String) :
    Blank K k r { b with currentInterval.symbol := v } := by
  refine h.set hs fun hused hmissing => ?_
  rcases hmissing with hm | hm | ⟨-, hm⟩
  · exact Or.inl hm
  · exact Or.inr (Or.inl hm)
  · exact absurd (hkey ▸ hused) hm

theorem Blank.onString (h : Blank K k r b) (v : String) : Blank K k r (b.onString v) := by
  rw [SymbologyBuilder.onString]
  split
  · rename_i hs
    split_ifs with h0 h1 h2
    · refine h.set hs fun hused hmissing => ?_
      rcases hmissing with ⟨-, hm⟩ | hm
      · exact absurd (h0 ▸ hused) hm
      · exact Or.inr hm
    · refine h.set hs fun hused hmissing => ?_
      rcases hmissing with hm | ⟨-, hm⟩ | hm
      · exact Or.inl hm
      · exact absurd (h1 ▸ hused) hm
      · exact Or.inr (Or.inr hm)
    · exact h.setSymbol hs h2 v
    · exact h
  · rename_i hs
    rcases h.state with hroot | ⟨-, hne, -⟩
    · exact absurd (hs.symm.trans hroot) State.noConfusion
    · exact absurd hs hne
  · rename_i hs
    rcases h.state with hroot | ⟨-, -, hne⟩
    · exact absurd (hs.symm.trans hroot) State.noConfusion
    · exact absurd hs hne
  · exact h

theorem Blank.onStartObject (h : Blank K k r b) (hK : Harmless K) (hk : k ≠ "result") :
    Blank K k r b.onStartObject := by
  rw [SymbologyBuilder.onStartObject]
  split
  · split
    · rename_i hresult
      have hused : "result" ∈ K := by
        rcases h.key with ⟨-, heq⟩ | hmem
        · exact absurd (heq.symm.trans hresult) hk
        · exact hresult ▸ hmem
      exact ⟨h.response, Or.inr (hresult ▸ hused), Or.inr ⟨hused, State.noConfusion, State.noConfusion⟩,
        fun hs => State.noConfusion hs⟩
    · exact h
  · rename_i hs
    obtain ⟨hkey, hused⟩ := h.below hs State.noConfusion
    exact ⟨h.response, Or.inr hkey, Or.inr ⟨hused, State.noConfusion, State.noConfusion⟩,
      fun _ => hK.missing hused⟩
  · exact h

theorem Blank.onEndObject (h : Blank K k r b) : Blank K k r b.onEndObject := by
  rw [SymbologyBuilder.onEndObject]
  split
  · rename_i hs
    obtain ⟨hkey, hused⟩ := h.below hs State.noConfusion
    rw [(h.interval hs).incomplete]
    exact ⟨h.response, Or.inr hkey, Or.inr ⟨hused, State.noConfusion, State.noConfusion⟩,
      fun hn => State.noConfusion hn⟩
  · rename_i hs
    exact ⟨h.response, Or.inr (h.below hs State.noConfusion).1, Or.inl rfl, fun hn => State.noConfusion hn⟩
  · exact h

theorem Blank.onStartArray (h : Blank K k r b) (hK : Harmless K) (hp : k ≠ "partial") (hn : k ≠ "not_found") :
    Blank K k r b.onStartArray := by
  rw [SymbologyBuilder.onStartArray]
  split
  · rw [if_neg (h.key_ne hp hK.partials), if_neg (h.key_ne hn hK.notFound)]
    exact h
  · rename_i hs
    obtain ⟨hkey, hused⟩ := h.below hs State.noConfusion
    exact ⟨h.response, Or.inr hkey, Or.inr ⟨hused, State.noConfusion, State.noConfusion⟩,
      fun hn => State.noConfusion hn⟩
  · exact h

theorem Blank.onEndArray (h : Blank K k r b) : Blank K k r b.onEndArray := by
  rw [SymbologyBuilder.onEndArray]
  split
  · rename_i hs
    obtain ⟨hkey, hused⟩ := h.below hs State.noConfusion
    exact ⟨h.response, Or.inr hkey, Or.inr ⟨hused, State.noConfusion, State.noConfusion⟩,
      fun hn => State.noConfusion hn⟩
  · rename_i hs
    rcases h.state with hroot | ⟨-, hne, -⟩
    · exact absurd (hs.symm.trans hroot) State.noConfusion
    · exact absurd hs hne
  · rename_i hs
    rcases h.state with hroot | ⟨-, -, hne⟩
    · exact absurd (hs.symm.trans hroot) State.noConfusion
    · exact absurd hs hne
  · exact h

/-- **No event below an unknown key of the root records anything.** -/
theorem Blank.event (h : Blank K k r b) (hK : Harmless K) (hk : k ∉ ["result", "partial", "not_found"])
    {e : SaxEvent} (he : ∀ k, e ≠ .key k) : Blank K k r (symbologyBuilder.handle b e) := by
  rw [List.mem_cons, List.mem_pair, not_or, not_or] at hk
  cases e with
  | null | bool | double => exact h
  | int v | int64 v =>
    show Blank K k r (b.onInt v)
    rw [onInt]
    split
    · rename_i hs
      exact h.setSymbol hs.1 hs.2 _
    · exact h
  | uint v | uint64 v =>
    show Blank K k r (b.onUint v)
    rw [onUint]
    split
    · rename_i hs
      exact h.setSymbol hs.1 hs.2 _
    · exact h
  | string v => exact h.onString v
  | key k' => exact absurd rfl (he k')
  | startObject => exact h.onStartObject hK hk.1
  | endObject => exact h.onEndObject
  | startArray => exact h.onStartArray hK hk.2.1 hk.2.2
  | endArray => exact h.onEndArray

end Blank

/-- **An unknown member of the root.** -/
theorem readMember_unknown (hs : b.state = .root) {K : Set String} (hK : Harmless K) {k : String} {v : Json}
    (hk : k ∉ ["result", "partial", "not_found"]) (hv : ∀ k, Uses k v → k ∈ K) :
    (readMember symbologyBuilder.handle b (k, v)).state = .root ∧
      (readMember symbologyBuilder.handle b (k, v)).response = b.response := by
  have hne : b.state ≠ .inResult := by
    rw [hs]
    exact State.noConfusion
  rw [readMember, handle_key hne]
  constructor
  · have hzero : b.state.depth = 0 := by rw [hs]; rfl
    rcases settles { b with currentKey := k } v with hsame | hlow
    · exact hsame.trans hs
    · exact absurd (hlow.trans_eq hzero) (Nat.not_lt_zero _)
  · have hblank : Blank K k b.response { b with currentKey := k } :=
      ⟨rfl, Or.inl ⟨hs, rfl⟩, Or.inl hs, fun hi => absurd (hs.symm.trans hi) State.noConfusion⟩
    have hevent : ∀ c e, (∀ k, e ≠ .key k) → Blank K k b.response c →
        Blank K k b.response (symbologyBuilder.handle c e) := fun c e he hc => hc.event hK hk he
    exact (read_keeps hevent v (fun k' hk' c hc => hc.onKey (hv k' hk')) hblank).response

/-! ### The response -/

/-- What a member makes of the response. -/
def apply (r : SymbologyResponse) : RootMember → SymbologyResponse
  | .result symbols => symbols.foldl saveSymbol r
  | .partials symbols => { r with partials := r.partials ++ symbols }
  | .notFound symbols => { r with notFound := r.notFound ++ symbols }
  | .unknown _ _ _ => r

/-- The strings of an array, collected in a list. -/
theorem foldl_strings {f : List String → SymbologyBuilder} (hf : ∀ l t, (f l).onString t = f (l ++ [t]))
    (l symbols : List String) :
    (symbols.map Json.string).foldl (read symbologyBuilder.handle) (f l) = f (l ++ symbols) := by
  induction symbols generalizing l with
  | nil => rw [List.append_nil]; rfl
  | cons t symbols ih =>
    have hread : read symbologyBuilder.handle (f l) (.string t) = f (l ++ [t]) := hf l t
    rw [List.map_cons, List.foldl_cons, hread, ih, List.append_assoc, List.singleton_append]

/-- The unknown values of a member. -/
def Admissible (K : Set String) : RootMember → Prop
  | .result symbols => ∀ s ∈ symbols, ∀ fields ∈ s.2, ∀ f ∈ fields, f.Plain
  | .unknown _ value _ => ∀ k, Uses k value → k ∈ K
  | _ => True

/-- The value below a known key of the root. -/
theorem readMember_known (hs : b.state = .root) {m : RootMember} {c d : SymbologyBuilder}
    (hread : read symbologyBuilder.handle { b with currentKey := m.member.1 } m.member.2 = c) (hc : c = d)
    (hroot : d.state = .root) (hresponse : d.response = apply b.response m) :
    (readMember symbologyBuilder.handle b m.member).state = .root ∧
      (readMember symbologyBuilder.handle b m.member).response = apply b.response m := by
  have hne : b.state ≠ .inResult := by
    rw [hs]
    exact State.noConfusion
  rw [readMember, handle_key hne, hread, hc]
  exact ⟨hroot, hresponse⟩

/-- **A member of the root.** -/
theorem readMember_root {K : Set String} (hK : Harmless K) (hs : b.state = .root) {m : RootMember}
    (hm : Admissible K m) :
    (readMember symbologyBuilder.handle b m.member).state = .root ∧
      (readMember symbologyBuilder.handle b m.member).response = apply b.response m := by
  cases m with
  | result symbols =>
    have hstart : symbologyBuilder.handle { b with currentKey := "result" } .startObject =
        { b with currentKey := "result", state := .inResult } := by
      show onStartObject _ = _
      rw [onStartObject]
      dsimp only
      rw [hs]
      rfl
    obtain ⟨key, symbol, i, hread⟩ := foldl_symbols
      (b := { b with currentKey := "result", state := .inResult }) rfl hm
    have hfold := (congrArg (List.foldl (readMember symbologyBuilder.handle) · _) hstart).trans hread
    exact readMember_known hs (read_object _ _ _) (congrArg (symbologyBuilder.handle · .endObject) hfold) rfl rfl
  | partials symbols =>
    have hstart : symbologyBuilder.handle { b with currentKey := "partial" } .startArray =
        { b with currentKey := "partial", state := .inPartialArray } := by
      show onStartArray _ = _
      rw [onStartArray]
      dsimp only
      rw [hs]
      rfl
    have hread := foldl_strings (f := fun l => { b with
      currentKey := "partial", state := .inPartialArray, response.partials := l }) (fun _ _ => rfl)
      b.response.partials symbols
    have hfold := (congrArg (List.foldl (read symbologyBuilder.handle) · _) hstart).trans hread
    exact readMember_known hs (read_array _ _ _) (congrArg (symbologyBuilder.handle · .endArray) hfold) rfl rfl
  | notFound symbols =>
    have hstart : symbologyBuilder.handle { b with currentKey := "not_found" } .startArray =
        { b with currentKey := "not_found", state := .inNotFoundArray } := by
      show onStartArray _ = _
      rw [onStartArray]
      dsimp only
      rw [hs]
      rfl
    have hread := foldl_strings (f := fun l => { b with
      currentKey := "not_found", state := .inNotFoundArray, response.notFound := l }) (fun _ _ => rfl)
      b.response.notFound symbols
    have hfold := (congrArg (List.foldl (read symbologyBuilder.handle) · _) hstart).trans hread
    exact readMember_known hs (read_array _ _ _) (congrArg (symbologyBuilder.handle · .endArray) hfold) rfl rfl
  | unknown key value other => exact readMember_unknown hs hK other hm

/-- **The root object.** -/
theorem read_response {K : Set String} (hK : Harmless K) {members : List RootMember}
    (hm : ∀ m ∈ members, Admissible K m) :
    (read symbologyBuilder.handle {} (responseJson members)).state = .root ∧
      (read symbologyBuilder.handle {} (responseJson members)).response = members.foldl apply {} := by
  have hfold : ∀ b : SymbologyBuilder, b.state = .root →
      ((members.map RootMember.member).foldl (readMember symbologyBuilder.handle) b).state = .root ∧
        ((members.map RootMember.member).foldl (readMember symbologyBuilder.handle) b).response =
          members.foldl apply b.response := by
    induction members with
    | nil => exact fun b hs => ⟨hs, rfl⟩
    | cons m members ih =>
      intro b hs
      obtain ⟨hroot, hresponse⟩ := readMember_root hK hs (hm m List.mem_cons_self)
      rw [List.map_cons, List.foldl_cons, List.foldl_cons, ← hresponse]
      exact ih (fun m hmem => hm m (List.mem_cons_of_mem _ hmem)) _ hroot
  have hstart : symbologyBuilder.handle {} .startObject = {} := rfl
  obtain ⟨hroot, hresponse⟩ := hfold {} rfl
  rw [responseJson, read_object, hstart]
  generalize (members.map RootMember.member).foldl (readMember symbologyBuilder.handle) {} = c at hroot hresponse ⊢
  have hend : symbologyBuilder.handle c .endObject = c := by
    show c.onEndObject = c
    rw [onEndObject, hroot]
  rw [hend]
  exact ⟨hroot, hresponse⟩

/-- The map holds the lists. -/
def Holds (r : SymbologyResponse) (l : String → List SymbolInterval) : Prop :=
  ∀ symbol, r.result.lookup symbol = entry (l symbol)

theorem entry_getD (l : List SymbolInterval) : (entry l).getD [] = l := by
  rw [entry]
  split
  · exact Eq.symm ‹_›
  · rfl

theorem Holds.congr {r : SymbologyResponse} {l l' : String → List SymbolInterval} (h : Holds r l)
    (heq : ∀ symbol, l' symbol = l symbol) : Holds r l' := by
  intro symbol
  rw [heq]
  exact h symbol

theorem Holds.save {r : SymbologyResponse} {l : String → List SymbolInterval} (h : Holds r l) (s : String)
    (i : SymbolInterval) :
    Holds (save s r i) fun symbol => l symbol ++ if s = symbol then [i].filter SymbolInterval.complete else [] := by
  intro symbol
  show (SymbologyBuilder.save s r i).result.lookup symbol =
    entry (l symbol ++ if s = symbol then [i].filter SymbolInterval.complete else [])
  cases hi : i.complete with
  | false =>
    rw [SymbologyBuilder.save, hi, List.filter_cons_of_neg (by rw [hi]; exact Bool.false_ne_true), List.filter_nil,
      ite_self, List.append_nil]
    exact h symbol
  | true =>
    rw [SymbologyBuilder.save, hi, if_pos rfl, List.filter_cons_of_pos hi, List.filter_nil]
    by_cases hs : s = symbol
    · subst hs
      rw [if_pos rfl, SymbologyResponse.push, AList.lookup_insert, h s, entry_getD, entry,
        if_neg (List.append_ne_nil_of_right_ne_nil _ (List.cons_ne_nil _ _))]
    · rw [if_neg hs, List.append_nil, SymbologyResponse.push, AList.lookup_insert_ne (Ne.symm hs)]
      exact h symbol

theorem Holds.foldl_save {r : SymbologyResponse} {l : String → List SymbolInterval} (h : Holds r l) (s : String)
    (is : List SymbolInterval) :
    Holds (is.foldl (SymbologyBuilder.save s) r) fun symbol =>
      l symbol ++ if s = symbol then is.filter SymbolInterval.complete else [] := by
  induction is generalizing r l with
  | nil => exact h.congr fun symbol => by rw [List.filter_nil, ite_self, List.append_nil]
  | cons i is ih =>
    refine (ih (h.save s i)).congr fun symbol => ?_
    rw [List.append_assoc]
    split
    · rw [← List.filter_append, List.singleton_append]
    · rfl

/-- **The map after some symbols.** -/
theorem Holds.foldl_saveSymbol {r : SymbologyResponse} {l : String → List SymbolInterval} (h : Holds r l)
    (symbols : List (String × List (List Field))) :
    Holds (symbols.foldl saveSymbol r) fun symbol =>
      l symbol ++ symbols.flatMap fun s => if s.1 = symbol then completeIntervals s.2 else [] := by
  induction symbols generalizing r l with
  | nil => exact h.congr fun symbol => by rw [List.flatMap_nil, List.append_nil]
  | cons s symbols ih =>
    refine (ih (h.foldl_save s.1 (s.2.map interval))).congr fun symbol => ?_
    rw [List.flatMap_cons, List.append_assoc]
    rfl

theorem foldl_saveSymbol_lists (symbols : List (String × List (List Field))) (r : SymbologyResponse) :
    (symbols.foldl saveSymbol r).partials = r.partials ∧ (symbols.foldl saveSymbol r).notFound = r.notFound := by
  have hsave : ∀ s (is : List SymbolInterval) (r : SymbologyResponse),
      (is.foldl (SymbologyBuilder.save s) r).partials = r.partials ∧
        (is.foldl (SymbologyBuilder.save s) r).notFound = r.notFound := by
    intro s is r
    refine List.foldlRecOn (motive := fun t : SymbologyResponse => t.partials = r.partials ∧ t.notFound = r.notFound)
      is _ ⟨rfl, rfl⟩ fun t ht i _ => ?_
    rw [SymbologyBuilder.save]
    split <;> exact ht
  refine List.foldlRecOn (motive := fun t : SymbologyResponse => t.partials = r.partials ∧ t.notFound = r.notFound)
    symbols _ ⟨rfl, rfl⟩ fun t ht s _ => ?_
  exact ⟨(hsave _ _ t).1.trans ht.1, (hsave _ _ t).2.trans ht.2⟩

/-- **What the members make of the response** is what they say. -/
theorem foldl_apply (members : List RootMember) {r : SymbologyResponse} {l : String → List SymbolInterval}
    (h : Holds r l) :
    (members.foldl apply r).partials = r.partials ++ Api.partials members ∧
      (members.foldl apply r).notFound = r.notFound ++ Api.notFound members ∧
      Holds (members.foldl apply r) fun symbol => l symbol ++ intervals members symbol := by
  induction members generalizing r l with
  | nil =>
    exact ⟨(List.append_nil _).symm, (List.append_nil _).symm, h.congr fun symbol => List.append_nil _⟩
  | cons m members ih =>
    cases m with
    | result symbols =>
      obtain ⟨hpartials, hnotFound⟩ := foldl_saveSymbol_lists symbols r
      obtain ⟨h1, h2, h3⟩ := ih (h.foldl_saveSymbol symbols)
      refine ⟨?_, ?_, h3.congr fun symbol => ?_⟩
      · rw [List.foldl_cons]
        exact h1.trans (by rw [hpartials]; rfl)
      · rw [List.foldl_cons]
        exact h2.trans (by rw [hnotFound]; rfl)
      · rw [List.append_assoc]
        rfl
    | partials symbols =>
      obtain ⟨h1, h2, h3⟩ := ih (r := { r with partials := r.partials ++ symbols }) h
      refine ⟨?_, h2, h3⟩
      rw [List.foldl_cons]
      exact h1.trans (List.append_assoc _ _ _)
    | notFound symbols =>
      obtain ⟨h1, h2, h3⟩ := ih (r := { r with notFound := r.notFound ++ symbols }) h
      refine ⟨h1, ?_, h3⟩
      rw [List.foldl_cons]
      exact h2.trans (List.append_assoc _ _ _)
    | unknown key value other => exact ih h

/-- **Unknown members never change the result**, where they are harmless. -/
theorem computes {K : Set String} (hK : Harmless K) {members : List RootMember}
    (hm : ∀ m ∈ members, Admissible K m) : Computes members := by
  obtain ⟨hroot, hresponse⟩ := read_response hK hm
  have hempty : Holds {} fun _ => [] := fun _ => rfl
  obtain ⟨h1, h2, h3⟩ := foldl_apply members hempty
  refine ⟨hroot, _, rfl, ?_⟩
  rw [hresponse]
  exact ⟨h1, h2, h3⟩

end SymbologyBuilder

end DbnPipe.Api
