import DbnPipe.Api.UnknownMembers

/-!
# What is recorded at each event

The events of a response, each with what a reader who counts the brackets would record there, beside what the builder
records in the state that it is in.

* `Record`, `recorded` — **what an event adds** to the response of the builder;
* `marked` — the events of a response, with what is **due** at each: an interval at the end of its object, a string in
  the arrays of the root, and nothing anywhere else;
* `ledger` — both columns;
* `Sound`, `Complete` — no undue record is made, and no due one is missed;
* `Balanced` — shelf by shelf, what is recorded is what is due;
* `computes_iff` — **a response is computed exactly if its ledger is balanced**; if it is in order at every event, and
  where the builder does not both miss a record and make an undue one, only then.
-/

namespace DbnPipe.Api

open Json

/-- What is recorded: a string in one of the lists, or an interval of a symbol. -/
inductive Record where
  | partials (value : String)
  | notFound (value : String)
  | interval (symbol : String) (i : SymbolInterval)
deriving DecidableEq

namespace Record

/-- The string, in `partial`. -/
def partials? : Record → Option String
  | .partials value => some value
  | _ => none

/-- The string, in `not_found`. -/
def notFound? : Record → Option String
  | .notFound value => some value
  | _ => none

/-- The interval, of this symbol. -/
def interval? (symbol : String) : Record → Option SymbolInterval
  | .interval s i => if s = symbol then some i else none
  | _ => none

end Record

namespace SymbologyBuilder

/-- **What the builder records** at an event, in the state that it is in. -/
def recorded (b : SymbologyBuilder) : SaxEvent → Option Record
  | .string value => match b.state with
    | .inPartialArray => some (.partials value)
    | .inNotFoundArray => some (.notFound value)
    | _ => none
  | .endObject =>
    if b.state = .inInterval ∧ b.currentInterval.complete = true then some (.interval b.currentSymbol b.currentInterval)
    else none
  | _ => none

end SymbologyBuilder

open SymbologyBuilder

/-! ### What is due -/

/-- An event, with what is due at it. -/
abbrev Marked := SaxEvent × Option Record

/-- Events at which nothing is due. -/
def unmarked (es : List SaxEvent) : List Marked := es.map fun e => (e, none)

/-- **The interval is due at the end of its object**, if it is complete. -/
def markedInterval (symbol : String) (fields : List Field) : List Marked :=
  unmarked (.startObject :: memberEvents (fields.map Field.member)) ++
    [(.endObject, if (interval fields).complete then some (.interval symbol (interval fields)) else none)]

/-- A symbol, with its array. -/
def markedSymbol (s : String × List (List Field)) : List Marked :=
  unmarked [.key s.1, .startArray] ++ (s.2.flatMap (markedInterval s.1) ++ unmarked [.endArray])

/-- A member of the root; **below an unknown key nothing is due**. -/
def RootMember.marked : RootMember → List Marked
  | .result symbols =>
    unmarked [.key "result", .startObject] ++ (symbols.flatMap markedSymbol ++ unmarked [.endObject])
  | .partials symbols =>
    unmarked [.key "partial", .startArray] ++
      (symbols.map (fun value => (.string value, some (.partials value))) ++ unmarked [.endArray])
  | .notFound symbols =>
    unmarked [.key "not_found", .startArray] ++
      (symbols.map (fun value => (.string value, some (.notFound value))) ++ unmarked [.endArray])
  | .unknown key value _ => unmarked (.key key :: value.events)

/-- **The response**, with what is due at each event. -/
def marked (members : List RootMember) : List Marked :=
  unmarked [.startObject] ++ (members.flatMap RootMember.marked ++ unmarked [.endObject])

@[simp] theorem map_fst_unmarked (es : List SaxEvent) : (unmarked es).map Prod.fst = es := by
  rw [unmarked, List.map_map]
  exact List.map_id es

/-- The members of an object, one after the other. -/
theorem memberEvents_flatMap {α : Type*} (f : α → String × Json) (l : List α) :
    memberEvents (l.map f) = l.flatMap fun a => .key (f a).1 :: (f a).2.events := by
  induction l with
  | nil => rfl
  | cons a l ih => rw [List.map_cons, memberEvents, ih, List.flatMap_cons, List.cons_append]

theorem elementEvents_flatMap {α : Type*} (f : α → Json) (l : List α) :
    elementEvents (l.map f) = l.flatMap fun a => (f a).events := by
  induction l with
  | nil => rfl
  | cons a l ih => rw [List.map_cons, elementEvents, ih, List.flatMap_cons]

theorem map_fst_markedInterval (symbol : String) (fields : List Field) :
    (markedInterval symbol fields).map Prod.fst = (intervalJson fields).events := by
  rw [markedInterval, List.map_append, map_fst_unmarked, intervalJson, events, List.cons_append]
  rfl

theorem map_fst_markedSymbol (s : String × List (List Field)) :
    (markedSymbol s).map Prod.fst = .key s.1 :: (Json.array (s.2.map intervalJson)).events := by
  simp only [markedSymbol, List.map_append, map_fst_unmarked, List.map_flatMap, map_fst_markedInterval, events,
    elementEvents_flatMap, List.cons_append, List.nil_append]

theorem RootMember.map_fst_marked (m : RootMember) :
    m.marked.map Prod.fst = .key m.member.1 :: m.member.2.events := by
  cases m with
  | result symbols =>
    simp only [RootMember.marked, RootMember.member, List.map_append, map_fst_unmarked, List.map_flatMap,
      map_fst_markedSymbol, events, memberEvents_flatMap, List.cons_append, List.nil_append]
  | partials symbols | notFound symbols =>
    simp only [RootMember.marked, RootMember.member, List.map_append, map_fst_unmarked, List.map_map, events,
      elementEvents_flatMap, List.cons_append, List.nil_append]
    congr 2
    induction symbols <;> simp_all
  | unknown key value other => exact map_fst_unmarked _

/-- **The marks are on the events of the response.** -/
theorem map_fst_marked (members : List RootMember) :
    (marked members).map Prod.fst = (responseJson members).events := by
  simp only [marked, responseJson, List.map_append, map_fst_unmarked, List.map_flatMap, RootMember.map_fst_marked, events,
    memberEvents_flatMap, List.cons_append, List.nil_append]

/-! ### The ledger -/

/-- What the builder records at each event, and what is due there. -/
def ledger (b : SymbologyBuilder) : List Marked → List (Option Record × Option Record)
  | [] => []
  | e :: es => (recorded b e.1, e.2) :: ledger (symbologyBuilder.handle b e.1) es

/-- **The builder makes no undue record** of the response. -/
def Sound (members : List RootMember) : Prop := ∀ p ∈ ledger {} (marked members), p.1 = none ∨ p.1 = p.2

/-- **The builder misses no due record.** -/
def Complete (members : List RootMember) : Prop := ∀ p ∈ ledger {} (marked members), p.2 = none ∨ p.2 = p.1

instance (members : List RootMember) : Decidable (Sound members) := inferInstanceAs (Decidable (∀ _ ∈ _, _))

instance (members : List RootMember) : Decidable (Complete members) := inferInstanceAs (Decidable (∀ _ ∈ _, _))

/-- On every shelf of the response there is what is due. -/
structure Balanced (l : List (Option Record × Option Record)) : Prop where
  partials : l.filterMap (fun p => p.1.bind Record.partials?) = l.filterMap fun p => p.2.bind Record.partials?
  notFound : l.filterMap (fun p => p.1.bind Record.notFound?) = l.filterMap fun p => p.2.bind Record.notFound?
  intervals : ∀ symbol, l.filterMap (fun p => p.1.bind (Record.interval? symbol)) =
    l.filterMap fun p => p.2.bind (Record.interval? symbol)

/-! ### What is recorded is kept -/

/-- The map holds the intervals of one more record. -/
theorem holds_push {r : SymbologyResponse} {l : String → List SymbolInterval} (h : Holds r l) (s : String)
    {i : SymbolInterval} (hi : i.complete = true) :
    Holds (r.push s i) fun symbol => l symbol ++ ((some (Record.interval s i)).bind (Record.interval? symbol)).toList := by
  have hsave := h.save s i
  rw [SymbologyBuilder.save, if_pos hi] at hsave
  refine hsave.congr fun symbol => congrArg (l symbol ++ ·) ?_
  rw [List.filter_cons_of_pos hi, List.filter_nil]
  show (if s = symbol then some i else none).toList = _
  split <;> rfl

/-- What an event does to the response. -/
structure Entered (b c : SymbologyBuilder) (r : Option Record) : Prop where
  partials : c.response.partials = b.response.partials ++ (r.bind Record.partials?).toList
  notFound : c.response.notFound = b.response.notFound ++ (r.bind Record.notFound?).toList
  intervals : ∀ l, Holds b.response l → Holds c.response fun symbol =>
    l symbol ++ (r.bind (Record.interval? symbol)).toList

theorem entered_none {b c : SymbologyBuilder} (h : c.response = b.response) : Entered b c none := by
  refine ⟨?_, ?_, fun l hl => ?_⟩
  · rw [h]
    exact (List.append_nil _).symm
  · rw [h]
    exact (List.append_nil _).symm
  · rw [h]
    exact hl.congr fun symbol => List.append_nil _

/-- **An event adds what it records**, and nothing else. -/
theorem entered_handle (b : SymbologyBuilder) (e : SaxEvent) : Entered b (symbologyBuilder.handle b e) (recorded b e) := by
  cases e with
  | null | bool | double => exact entered_none rfl
  | key k =>
    refine entered_none ?_
    show (b.onKey k).response = b.response
    rw [onKey]
    dsimp only
    split <;> rfl
  | int v | int64 v =>
    refine entered_none ?_
    show (b.onInt v).response = b.response
    rw [onInt]
    split <;> rfl
  | uint v | uint64 v =>
    refine entered_none ?_
    show (b.onUint v).response = b.response
    rw [onUint]
    split <;> rfl
  | string v =>
    show Entered b (b.onString v) (recorded b (.string v))
    unfold onString recorded
    cases hs : b.state with
    | inInterval =>
      dsimp only
      refine entered_none ?_
      split_ifs <;> rfl
    | inPartialArray => exact ⟨rfl, (List.append_nil _).symm, fun l hl => hl.congr fun symbol => List.append_nil _⟩
    | inNotFoundArray => exact ⟨(List.append_nil _).symm, rfl, fun l hl => hl.congr fun symbol => List.append_nil _⟩
    | _ => exact entered_none rfl
  | startObject =>
    refine entered_none ?_
    show b.onStartObject.response = b.response
    rw [onStartObject]
    split
    · split <;> rfl
    · rfl
    · rfl
  | endObject =>
    show Entered b b.onEndObject (recorded b .endObject)
    unfold onEndObject recorded
    cases hs : b.state with
    | inInterval =>
      dsimp only
      cases hi : b.currentInterval.complete with
      | true =>
        exact ⟨(List.append_nil _).symm, (List.append_nil _).symm, fun l hl => holds_push hl b.currentSymbol hi⟩
      | false => exact entered_none rfl
    | _ => exact entered_none rfl
  | startArray =>
    refine entered_none ?_
    show b.onStartArray.response = b.response
    rw [onStartArray]
    split
    · split_ifs <;> rfl
    · rfl
    · rfl
  | endArray =>
    refine entered_none ?_
    show b.onEndArray.response = b.response
    rw [onEndArray]
    split <;> rfl

/-- What the events of a list add. -/
structure EnteredAll (b c : SymbologyBuilder) (l : List (Option Record × Option Record)) : Prop where
  partials : c.response.partials = b.response.partials ++ l.filterMap fun p => p.1.bind Record.partials?
  notFound : c.response.notFound = b.response.notFound ++ l.filterMap fun p => p.1.bind Record.notFound?
  intervals : ∀ held, Holds b.response held → Holds c.response fun symbol =>
    held symbol ++ l.filterMap fun p => p.1.bind (Record.interval? symbol)

theorem filterMap_cons_toList {α β : Type*} (f : α → Option β) (a : α) (l : List α) :
    (a :: l).filterMap f = (f a).toList ++ l.filterMap f := by
  rw [List.filterMap_cons]
  cases f a <;> rfl

/-- **The response holds what was recorded**, in order. -/
theorem entered_foldl (es : List Marked) (b : SymbologyBuilder) :
    EnteredAll b ((es.map Prod.fst).foldl symbologyBuilder.handle b) (ledger b es) := by
  induction es generalizing b with
  | nil =>
    exact ⟨(List.append_nil _).symm, (List.append_nil _).symm, fun held h => h.congr fun symbol => List.append_nil _⟩
  | cons e es ih =>
    obtain ⟨h1, h2, h3⟩ := entered_handle b e.1
    obtain ⟨ih1, ih2, ih3⟩ := ih (symbologyBuilder.handle b e.1)
    refine ⟨?_, ?_, fun held h => (ih3 _ (h3 held h)).congr fun symbol => ?_⟩
    · rw [List.map_cons, List.foldl_cons, ih1, h1, ledger, filterMap_cons_toList, List.append_assoc]
    · rw [List.map_cons, List.foldl_cons, ih2, h2, ledger, filterMap_cons_toList, List.append_assoc]
    · rw [ledger, filterMap_cons_toList, List.append_assoc]

/-! ### What is due is what the response says -/

theorem map_snd_ledger (es : List Marked) (b : SymbologyBuilder) : (ledger b es).map Prod.snd = es.map Prod.snd := by
  induction es generalizing b with
  | nil => rfl
  | cons e es ih => rw [ledger, List.map_cons, List.map_cons, ih]

/-- The due records of a shelf. -/
def due {α : Type*} (f : Record → Option α) (es : List Marked) : List α := es.filterMap fun e => e.2.bind f

theorem filterMap_ledger {α : Type*} (f : Record → Option α) (es : List Marked) (b : SymbologyBuilder) :
    (ledger b es).filterMap (fun p => p.2.bind f) = due f es := by
  have hleft := List.filterMap_map (f := Prod.snd) (g := fun r : Option Record => r.bind f) (l := ledger b es)
  have hright := List.filterMap_map (f := Prod.snd) (g := fun r : Option Record => r.bind f) (l := es)
  rw [map_snd_ledger] at hleft
  exact hleft.symm.trans hright

section Due

variable {α : Type*} (f : Record → Option α)

@[simp] theorem due_append (es es' : List Marked) : due f (es ++ es') = due f es ++ due f es' := List.filterMap_append

@[simp] theorem due_unmarked (es : List SaxEvent) : due f (unmarked es) = [] := by
  rw [due, unmarked, List.filterMap_map]
  exact List.filterMap_eq_nil_iff.mpr fun _ _ => rfl

theorem due_flatMap {β : Type*} (g : β → List Marked) (l : List β) :
    due f (l.flatMap g) = l.flatMap fun a => due f (g a) := by
  induction l with
  | nil => rfl
  | cons a l ih => rw [List.flatMap_cons, due_append, ih, List.flatMap_cons]

/-- Where one member adds nothing, none does. -/
theorem due_flatMap_nil {β : Type*} {g : β → List Marked} {l : List β} (h : ∀ a ∈ l, due f (g a) = []) :
    due f (l.flatMap g) = [] := by
  rw [due_flatMap, List.flatMap_eq_nil_iff]
  exact h

end Due

/-- An interval object adds its interval. -/
theorem due_markedInterval {α : Type*} (f : Record → Option α) (symbol : String) (fields : List Field) :
    due f (markedInterval symbol fields) =
      if (interval fields).complete then (f (.interval symbol (interval fields))).toList else [] := by
  rw [markedInterval, due_append, due_unmarked, List.nil_append, due, filterMap_cons_toList, List.filterMap_nil,
    List.append_nil]
  split <;> rfl

/-- **The array of a symbol** adds its complete intervals. -/
theorem due_markedSymbol (symbol : String) (s : String × List (List Field)) :
    due (Record.interval? symbol) (markedSymbol s) = if s.1 = symbol then completeIntervals s.2 else [] := by
  rw [markedSymbol, due_append, due_append, due_unmarked, due_unmarked, List.nil_append, List.append_nil, due_flatMap,
    completeIntervals]
  induction s.2 with
  | nil =>
    rw [List.flatMap_nil, List.map_nil, List.filter_nil, ite_self]
  | cons fields objects ih =>
    rw [List.flatMap_cons, ih, due_markedInterval, List.map_cons, Record.interval?]
    cases hi : (interval fields).complete with
    | true =>
      rw [List.filter_cons_of_pos hi]
      by_cases hs : s.1 = symbol
      · rw [if_pos rfl, if_pos hs, if_pos hs, if_pos hs]
        rfl
      · rw [if_pos rfl, if_neg hs, if_neg hs, if_neg hs]
        rfl
    | false =>
      rw [List.filter_cons_of_neg (by rw [hi]; exact Bool.false_ne_true), if_neg Bool.false_ne_true, List.nil_append]

/-- No interval is a string in a list. -/
theorem due_markedSymbol_nil {α : Type*} {f : Record → Option α} (h : ∀ symbol i, f (.interval symbol i) = none)
    (s : String × List (List Field)) : due f (markedSymbol s) = [] := by
  rw [markedSymbol, due_append, due_append, due_unmarked, due_unmarked, List.nil_append, List.append_nil]
  refine due_flatMap_nil f fun fields _ => ?_
  rw [due_markedInterval, h]
  exact ite_self _

theorem due_strings {α : Type*} (f : Record → Option α) (g : String → Record) (symbols : List String) :
    due f (symbols.map fun value => (.string value, some (g value))) = symbols.filterMap fun value => f (g value) := by
  rw [due, List.filterMap_map]
  rfl

theorem filterMap_some' (symbols : List String) : symbols.filterMap (fun value => some value) = symbols :=
  List.filterMap_some

theorem filterMap_none' {α : Type*} (symbols : List String) : (symbols.filterMap fun _ => (none : Option α)) = [] :=
  List.filterMap_eq_nil_iff.mpr fun _ _ => rfl

/-- **The response** adds to each shelf what it says. -/
theorem due_marked {α : Type*} (f : Record → Option α) (members : List RootMember) :
    due f (marked members) = members.flatMap fun m => due f m.marked := by
  rw [marked, due_append, due_append, due_unmarked, due_unmarked, List.nil_append, List.append_nil, due_flatMap]

theorem due_partials (members : List RootMember) : due Record.partials? (marked members) = partials members := by
  rw [due_marked, partials]
  refine congrArg (List.flatMap · members) (funext fun m => ?_)
  cases m with
  | result symbols =>
    rw [RootMember.marked, due_append, due_append, due_unmarked, due_unmarked, List.nil_append, List.append_nil]
    exact due_flatMap_nil _ fun s _ => due_markedSymbol_nil (fun _ _ => rfl) s
  | partials symbols =>
    rw [RootMember.marked, due_append, due_append, due_unmarked, due_unmarked, List.nil_append, List.append_nil,
      due_strings]
    exact filterMap_some' symbols
  | notFound symbols =>
    rw [RootMember.marked, due_append, due_append, due_unmarked, due_unmarked, List.nil_append, List.append_nil,
      due_strings]
    exact filterMap_none' symbols
  | unknown key value other => exact due_unmarked _ _

theorem due_notFound (members : List RootMember) : due Record.notFound? (marked members) = notFound members := by
  rw [due_marked, notFound]
  refine congrArg (List.flatMap · members) (funext fun m => ?_)
  cases m with
  | result symbols =>
    rw [RootMember.marked, due_append, due_append, due_unmarked, due_unmarked, List.nil_append, List.append_nil]
    exact due_flatMap_nil _ fun s _ => due_markedSymbol_nil (fun _ _ => rfl) s
  | partials symbols =>
    rw [RootMember.marked, due_append, due_append, due_unmarked, due_unmarked, List.nil_append, List.append_nil,
      due_strings]
    exact filterMap_none' symbols
  | notFound symbols =>
    rw [RootMember.marked, due_append, due_append, due_unmarked, due_unmarked, List.nil_append, List.append_nil,
      due_strings]
    exact filterMap_some' symbols
  | unknown key value other => exact due_unmarked _ _

theorem due_intervals (members : List RootMember) (symbol : String) :
    due (Record.interval? symbol) (marked members) = intervals members symbol := by
  rw [due_marked, intervals]
  refine congrArg (List.flatMap · members) (funext fun m => ?_)
  cases m with
  | result symbols =>
    rw [RootMember.marked, due_append, due_append, due_unmarked, due_unmarked, List.nil_append, List.append_nil,
      due_flatMap]
    exact congrArg (List.flatMap · symbols) (funext fun s => due_markedSymbol symbol s)
  | partials symbols | notFound symbols =>
    rw [RootMember.marked, due_append, due_append, due_unmarked, due_unmarked, List.nil_append, List.append_nil,
      due_strings]
    exact filterMap_none' symbols
  | unknown key value other => exact due_unmarked _ _

/-! ### The response is computed where the ledger is balanced -/

theorem entry_injective {l l' : List SymbolInterval} (h : entry l = entry l') : l = l' := by
  rw [← entry_getD l, h, entry_getD]

/-- **Whatever the response is**, the builder comes back to `Root`. -/
theorem response_root (members : List RootMember) :
    (read symbologyBuilder.handle {} (responseJson members)).state = .root := by
  rcases settles {} (responseJson members) with hsame | hlow
  · exact hsame
  · exact absurd hlow (Nat.not_lt_zero _)

theorem computes_iff_balanced (members : List RootMember) :
    Computes members ↔ Balanced (ledger {} (marked members)) := by
  have hempty : Holds ({} : SymbologyBuilder).response fun _ => [] := fun _ => rfl
  obtain ⟨hpartials, hnotFound, hintervals⟩ := entered_foldl (marked members) {}
  replace hintervals := hintervals _ hempty
  rw [map_fst_marked] at hpartials hnotFound hintervals
  have hfilled : ∀ {α : Type} (f : Record → Option α),
      (ledger {} (marked members)).filterMap (fun p => p.2.bind f) = due f (marked members) := fun f =>
    filterMap_ledger f (marked members) {}
  constructor
  · rintro ⟨-, r, hr, h1, h2, h3⟩
    obtain rfl := Except.ok.inj hr
    refine ⟨?_, ?_, fun symbol => ?_⟩
    · rw [hfilled, due_partials, ← h1]
      exact hpartials.symm
    · rw [hfilled, due_notFound, ← h2]
      exact hnotFound.symm
    · rw [hfilled, due_intervals]
      exact entry_injective ((hintervals symbol).symm.trans (h3 symbol))
  · rintro ⟨h1, h2, h3⟩
    refine ⟨response_root members, _, rfl, ?_, ?_, fun symbol => ?_⟩
    · rw [← due_partials, ← hfilled, ← h1]
      exact hpartials
    · rw [← due_notFound, ← hfilled, ← h2]
      exact hnotFound
    · rw [← due_intervals, ← hfilled, ← h3]
      exact hintervals symbol

/-! ### Entry by entry -/

theorem Balanced.symm {l : List (Option Record × Option Record)} (h : Balanced l) :
    Balanced (l.map Prod.swap) := by
  have hswap : ∀ {α : Type} (f : Record → Option α),
      (l.map Prod.swap).filterMap (fun p => p.1.bind f) = l.filterMap (fun p => p.2.bind f) ∧
        (l.map Prod.swap).filterMap (fun p => p.2.bind f) = l.filterMap fun p => p.1.bind f := fun f =>
    ⟨List.filterMap_map, List.filterMap_map⟩
  refine ⟨?_, ?_, fun symbol => ?_⟩
  · rw [(hswap _).1, (hswap _).2, h.partials]
  · rw [(hswap _).1, (hswap _).2, h.notFound]
  · rw [(hswap _).1, (hswap _).2, h.intervals]

-- a known key below an unknown one, with nothing that is recorded
example : Sound [.unknown "message" (.object [("partial", .bool true)]) (by decide)] ∧
    Complete [.unknown "message" (.object [("partial", .bool true)]) (by decide)] := by decide

-- an object in front of the fields of an interval: the interval is missed
example : Sound (brokenInterval (.object []) "a") ∧ ¬Complete (brokenInterval (.object []) "a") := by decide

/-- An interval with an object behind its fields. -/
def lateObject : List RootMember :=
  [.result [("A", [[.d0 "a", .d1 "b", .s (.text "c"), .unknown "x" (.object []) unknown_key]])]]

/-- **An undue record can make up for a missed one**: the end of that object saves the interval, and its own does not. -/
theorem computes_lateObject : Computes lateObject ∧ ¬Sound lateObject ∧ ¬Complete lateObject := by
  have hledger : ledger {} (marked lateObject) = List.replicate 14 (none, none) ++
      (some (.interval "A" ⟨"a", "b", "c"⟩), none) :: (none, some (.interval "A" ⟨"a", "b", "c"⟩)) ::
        List.replicate 3 (none, none) := by decide
  refine ⟨(computes_iff_balanced lateObject).mpr ?_, by decide, by decide⟩
  rw [hledger]
  exact ⟨rfl, rfl, fun _ => rfl⟩

end DbnPipe.Api
