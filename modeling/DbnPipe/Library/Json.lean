import Mathlib.Data.List.Basic
import Mathlib.Data.Int.Notation
import Mathlib.Algebra.Group.Int.Defs
import Mathlib.Algebra.Group.Nat.Defs

/-!
# JSON values and their SAX events

A JSON value, and the sequence of handler calls in which an event parser reports it.

* `Json` — the values; an object is the list of its members, **in order and with repetitions**;
* `Json.events` — the events of a value;
* `Json.induct` — induction over a value, with the statement for all elements and members;
* `Json.read` — a handler that is given the events of a value, with its laws for arrays and objects;
* `Json.lastUnder` — the last string under a key, **wherever the key stands**;
* `Json.ObjectFree`, `Json.Uses` — a value without objects, and a key used in a value at any depth.
-/

namespace DbnPipe

/-- A JSON value; a number is an integer literal, or has a fraction or an exponent. -/
inductive Json where
  | null
  | bool (b : Bool)
  | integer (minus : Bool) (n : ℕ)
  | decimal (literal : String)
  | string (s : String)
  | array (vs : List Json)
  | object (ms : List (String × Json))

/-- A call of the handler. -/
inductive SaxEvent where
  | null
  | bool (b : Bool)
  | int (i : ℤ)
  | uint (u : ℕ)
  | int64 (i : ℤ)
  | uint64 (u : ℕ)
  | double (literal : String)
  | string (s : String)
  | key (k : String)
  | startObject
  | endObject
  | startArray
  | endArray
deriving DecidableEq, Repr

namespace Json

/-- An integer is reported in the smallest type that holds it, and as a floating-point number if none does. -/
def integerEvent (minus : Bool) (n : ℕ) : SaxEvent :=
  if minus then
    if n ≤ 2 ^ 31 then .int (-n) else if n ≤ 2 ^ 63 then .int64 (-n) else .double ("-" ++ toString n)
  else
    if n < 2 ^ 32 then .uint n else if n < 2 ^ 64 then .uint64 n else .double (toString n)

mutual

/-- The events of a value. -/
def events : Json → List SaxEvent
  | .null => [.null]
  | .bool b => [.bool b]
  | .integer minus n => [integerEvent minus n]
  | .decimal literal => [.double literal]
  | .string s => [.string s]
  | .array vs => .startArray :: (elementEvents vs ++ [.endArray])
  | .object ms => .startObject :: (memberEvents ms ++ [.endObject])

/-- The events of some elements. -/
def elementEvents : List Json → List SaxEvent
  | [] => []
  | v :: vs => events v ++ elementEvents vs

/-- The events of some members. -/
def memberEvents : List (String × Json) → List SaxEvent
  | [] => []
  | (k, v) :: ms => .key k :: (events v ++ memberEvents ms)

end

/-- **Induction over a value.** -/
theorem induct {P : Json → Prop} (null : P .null) (bool : ∀ b, P (.bool b))
    (integer : ∀ minus n, P (.integer minus n)) (decimal : ∀ literal, P (.decimal literal))
    (string : ∀ s, P (.string s)) (array : ∀ vs, (∀ v ∈ vs, P v) → P (.array vs))
    (object : ∀ ms, (∀ m ∈ ms, P m.2) → P (.object ms)) (v : Json) : P v := by
  refine @Json.rec P (fun vs => ∀ v ∈ vs, P v) (fun ms => ∀ m ∈ ms, P m.2) (fun m => P m.2)
    null bool integer decimal string array object ?_ ?_ ?_ ?_ (fun _ _ h => h) v
  · exact fun v hv => absurd hv List.not_mem_nil
  · intro head tail hhead htail v hv
    rcases List.mem_cons.mp hv with rfl | hv
    · exact hhead
    · exact htail v hv
  · exact fun m hm => absurd hm List.not_mem_nil
  · intro head tail hhead htail m hm
    rcases List.mem_cons.mp hm with rfl | hm
    · exact hhead
    · exact htail m hm

/-- A scalar value has one event. -/
inductive Scalar : SaxEvent → Prop
  | null : Scalar .null
  | bool (b : Bool) : Scalar (.bool b)
  | int (i : ℤ) : Scalar (.int i)
  | uint (u : ℕ) : Scalar (.uint u)
  | int64 (i : ℤ) : Scalar (.int64 i)
  | uint64 (u : ℕ) : Scalar (.uint64 u)
  | double (literal : String) : Scalar (.double literal)
  | string (s : String) : Scalar (.string s)

theorem scalar_integerEvent (minus : Bool) (n : ℕ) : Scalar (integerEvent minus n) := by
  rw [integerEvent]
  split_ifs <;> constructor

/-- The events of a value end with a scalar only if there are no others. -/
theorem events_scalar {v : Json} {es : List SaxEvent} {e : SaxEvent} (h : v.events = es ++ [e]) (he : Scalar e) :
    es = [] := by
  have hlast : v.events.getLast? = some e := by rw [h, List.getLast?_concat]
  cases v with
  | array vs =>
    rw [events, ← List.cons_append, List.getLast?_concat] at hlast
    obtain rfl := Option.some.inj hlast
    cases he
  | object ms =>
    rw [events, ← List.cons_append, List.getLast?_concat] at hlast
    obtain rfl := Option.some.inj hlast
    cases he
  | _ => exact (List.append_eq_singleton_iff.mp h.symm).elim And.left fun h => absurd h.2 (List.cons_ne_nil e [])

/-! ### Handlers -/

variable {σ : Type*} (step : σ → SaxEvent → σ)

/-- **Reading a value**: the handler is given its events. -/
def read (s : σ) (v : Json) : σ := v.events.foldl step s

/-- Reading a member. -/
def readMember (s : σ) (m : String × Json) : σ := read step (step s (.key m.1)) m.2

theorem foldl_elementEvents (s : σ) (vs : List Json) :
    (elementEvents vs).foldl step s = vs.foldl (read step) s := by
  induction vs generalizing s with
  | nil => rfl
  | cons v vs ih => rw [elementEvents, List.foldl_append, ih, List.foldl_cons, read]

theorem foldl_memberEvents (s : σ) (ms : List (String × Json)) :
    (memberEvents ms).foldl step s = ms.foldl (readMember step) s := by
  induction ms generalizing s with
  | nil => rfl
  | cons m ms ih => rw [memberEvents, List.foldl_cons, List.foldl_append, ih, List.foldl_cons, readMember, read]

theorem read_array (s : σ) (vs : List Json) :
    read step s (.array vs) = step (vs.foldl (read step) (step s .startArray)) .endArray := by
  rw [read, events, List.foldl_cons, List.foldl_append, foldl_elementEvents]
  rfl

theorem read_object (s : σ) (ms : List (String × Json)) :
    read step s (.object ms) = step (ms.foldl (readMember step) (step s .startObject)) .endObject := by
  rw [read, events, List.foldl_cons, List.foldl_append, foldl_memberEvents]
  rfl

/-! ### Strings and the keys before them -/

/-- The last key, behind some events; `c` is the one before them. -/
def keyAfter (c : String) : List SaxEvent → String
  | [] => c
  | .key k :: es => keyAfter k es
  | _ :: es => keyAfter c es

/-- **The last string that has `k` as the last key before it**, among some events behind the key `c`. -/
def lastUnder (k : String) : String → List SaxEvent → Option String
  | _, [] => none
  | _, .key c :: es => lastUnder k c es
  | c, .string s :: es => (lastUnder k c es).or (if c = k then some s else none)
  | c, _ :: es => lastUnder k c es

theorem lastUnder_append (k : String) (c : String) (es es' : List SaxEvent) :
    lastUnder k c (es ++ es') = (lastUnder k (keyAfter c es) es').or (lastUnder k c es) := by
  induction es generalizing c with
  | nil => exact (Option.or_none).symm
  | cons e es ih =>
    cases e with
    | key k' => exact ih k'
    | string s =>
      show (lastUnder k c (es ++ es')).or _ = (lastUnder k (keyAfter c es) es').or ((lastUnder k c es).or _)
      rw [ih c, Option.or_assoc]
    | _ => exact ih c

/-- Where the key is not met and not the last one, no string stands under it. -/
theorem lastUnder_eq_none {k : String} {es : List SaxEvent} (hes : SaxEvent.key k ∉ es) {c : String} (hc : c ≠ k) :
    lastUnder k c es = none := by
  induction es generalizing c with
  | nil => rfl
  | cons e es ih =>
    rw [List.mem_cons, not_or] at hes
    cases e with
    | key k' => exact ih hes.2 fun h => hes.1 (congrArg SaxEvent.key h.symm)
    | string s =>
      show (lastUnder k c es).or (if c = k then some s else none) = none
      rw [ih hes.2 hc, if_neg hc]
      rfl
    | _ => exact ih hes.2 hc

/-! ### What a value contains -/

/-- A value without objects. -/
inductive ObjectFree : Json → Prop
  | null : ObjectFree .null
  | bool (b : Bool) : ObjectFree (.bool b)
  | integer (minus : Bool) (n : ℕ) : ObjectFree (.integer minus n)
  | decimal (literal : String) : ObjectFree (.decimal literal)
  | string (s : String) : ObjectFree (.string s)
  | array (vs : List Json) (h : ∀ v ∈ vs, ObjectFree v) : ObjectFree (.array vs)

/-- A key is used in a value, at some depth. -/
inductive Uses (k : String) : Json → Prop
  | key (ms : List (String × Json)) (m : String × Json) (hm : m ∈ ms) (hk : m.1 = k) : Uses k (.object ms)
  | member (ms : List (String × Json)) (m : String × Json) (hm : m ∈ ms) (h : Uses k m.2) : Uses k (.object ms)
  | element (vs : List Json) (v : Json) (hv : v ∈ vs) (h : Uses k v) : Uses k (.array vs)

@[simp]
theorem not_uses_string (k s : String) : ¬Uses k (.string s) := fun h => nomatch h

@[simp]
theorem uses_array {k : String} {vs : List Json} : Uses k (.array vs) ↔ ∃ v ∈ vs, Uses k v := by
  constructor
  · rintro (_ | _ | ⟨_, v, hv, h⟩)
    exact ⟨v, hv, h⟩
  · rintro ⟨v, hv, h⟩
    exact .element vs v hv h

@[simp]
theorem uses_object {k : String} {ms : List (String × Json)} :
    Uses k (.object ms) ↔ ∃ m ∈ ms, m.1 = k ∨ Uses k m.2 := by
  constructor
  · rintro (⟨_, m, hm, hk⟩ | ⟨_, m, hm, h⟩)
    · exact ⟨m, hm, Or.inl hk⟩
    · exact ⟨m, hm, Or.inr h⟩
  · rintro ⟨m, hm, hk | h⟩
    · exact .key ms m hm hk
    · exact .member ms m hm h

theorem mem_elementEvents {e : SaxEvent} {vs : List Json} (h : e ∈ elementEvents vs) : ∃ v ∈ vs, e ∈ v.events := by
  induction vs with
  | nil => exact absurd h List.not_mem_nil
  | cons v vs ih =>
    rw [elementEvents] at h
    rcases List.mem_append.mp h with h | h
    · exact ⟨v, List.mem_cons_self, h⟩
    · obtain ⟨w, hw, he⟩ := ih h
      exact ⟨w, List.mem_cons_of_mem v hw, he⟩

theorem mem_memberEvents {e : SaxEvent} {ms : List (String × Json)} (h : e ∈ memberEvents ms) :
    ∃ m ∈ ms, e = .key m.1 ∨ e ∈ m.2.events := by
  induction ms with
  | nil => exact absurd h List.not_mem_nil
  | cons m ms ih =>
    rw [memberEvents] at h
    rcases List.mem_cons.mp h with h | h
    · exact ⟨m, List.mem_cons_self, .inl h⟩
    · rcases List.mem_append.mp h with h | h
      · exact ⟨m, List.mem_cons_self, .inr h⟩
      · obtain ⟨m', hm', he⟩ := ih h
        exact ⟨m', List.mem_cons_of_mem m hm', he⟩

/-- The keys among the events of a value are those used in it. -/
theorem uses_of_mem_events {k : String} {v : Json} (h : SaxEvent.key k ∈ v.events) : Uses k v := by
  induction v using Json.induct with
  | null | bool b | decimal literal | string t => exact absurd (List.mem_singleton.mp h) SaxEvent.noConfusion
  | integer minus n =>
    have hscalar := scalar_integerEvent minus n
    rw [← List.mem_singleton.mp h] at hscalar
    cases hscalar
  | array vs ih =>
    rw [events, List.mem_cons, List.mem_append, List.mem_singleton] at h
    rcases h with h | h | h
    · cases h
    · obtain ⟨v, hv, he⟩ := mem_elementEvents h
      exact .element vs v hv (ih v hv he)
    · cases h
  | object ms ih =>
    rw [events, List.mem_cons, List.mem_append, List.mem_singleton] at h
    rcases h with h | h | h
    · cases h
    · obtain ⟨m, hm, he | he⟩ := mem_memberEvents h
      · exact .key ms m hm (SaxEvent.key.inj he).symm
      · exact .member ms m hm (ih m hm he)
    · cases h

section Contents

variable {step}

/-- What every event preserves, but for the keys that are not used, reading preserves. -/
theorem read_keeps {P : σ → Prop} (hevent : ∀ s e, (∀ k, e ≠ .key k) → P s → P (step s e)) (v : Json)
    (hkey : ∀ k, Uses k v → ∀ s, P s → P (step s (.key k))) {s : σ} (hs : P s) : P (read step s v) := by
  induction v using Json.induct generalizing s with
  | null | bool b | decimal literal | string t => exact hevent s _ (fun _ => SaxEvent.noConfusion) hs
  | integer minus n =>
    refine hevent s _ (fun k he => ?_) hs
    have hscalar := scalar_integerEvent minus n
    rw [he] at hscalar
    cases hscalar
  | array vs ih =>
    rw [read_array]
    refine hevent _ _ (fun _ => SaxEvent.noConfusion) ?_
    refine List.foldlRecOn vs (read step) (hevent s _ (fun _ => SaxEvent.noConfusion) hs) fun t ht v hv => ?_
    exact ih v hv (fun k hk => hkey k (.element vs v hv hk)) ht
  | object ms ih =>
    rw [read_object]
    refine hevent _ _ (fun _ => SaxEvent.noConfusion) ?_
    refine List.foldlRecOn ms (readMember step) (hevent s _ (fun _ => SaxEvent.noConfusion) hs) fun t ht m hm => ?_
    exact ih m hm (fun k hk => hkey k (.member ms m hm hk)) (hkey m.1 (.key ms m hm rfl) t ht)

/-- A handler that ignores scalars and arrays ignores a value without objects. -/
theorem read_of_objectFree {v : Json} (h : ObjectFree v) {s : σ}
    (hs : ∀ e, Scalar e ∨ e = .startArray ∨ e = .endArray → step s e = s) : read step s v = s := by
  induction h with
  | null => exact hs _ (Or.inl .null)
  | bool b => exact hs _ (Or.inl (.bool b))
  | integer minus n => exact hs _ (Or.inl (scalar_integerEvent minus n))
  | decimal literal => exact hs _ (Or.inl (.double literal))
  | string t => exact hs _ (Or.inl (.string t))
  | array vs _ ih =>
    have hall : vs.foldl (read step) s = s :=
      List.foldlRecOn (motive := fun t => t = s) vs (read step) rfl fun t ht v hv => by rw [ht, ih v hv]
    rw [read_array, hs _ (Or.inr (Or.inl rfl)), hall, hs _ (Or.inr (Or.inr rfl))]

end Contents

end Json

end DbnPipe
