import DbnPipe.Storage.DuckDbStorage
import DbnPipe.Library.Intervals
import DbnPipe.Library.Runs
import Mathlib.Data.List.Induction

/-!
# The instrument map, and the storage behind it

`InstrumentMap` over a `DuckDbStorage`: a date is resolved in memory by binary search over half-open intervals,
and for an instrument not in memory by the range query of the storage.

* `InstrumentMap`, `insert`, `resolve` — **the map of the source**;
* `Mapping`, `populate` — a sequence of `Insert` calls; `Consistent` — what a caller promises of it;
* `symbolOn` — **what the mappings say** about an instrument on a date;
* `resolve_populate` — the map resolves as the mappings say;
* `resolve_alike_iff` — a fresh map over the storage does so **exactly where** no interval ends, or the same
  symbol starts again.
-/

namespace DbnPipe.Storage

open Intervals

/-- `MappingInterval`. -/
structure MappingInterval where
  startDate : TradingDate
  endDate : TradingDate
  symbol : Symbol
deriving DecidableEq

/-- `InstrumentMap` with its storage. -/
structure InstrumentMap where
  mappings : UInt32 → Option (List MappingInterval) := fun _ => none
  storage : DuckDbStorage

/-- What `std::sort` by start date promises: intervals that start together come in any order. -/
structure SortsByStart (sort : List MappingInterval → List MappingInterval) : Prop where
  perm : ∀ l, (sort l).Perm l
  sorted : ∀ l, (sort l).Pairwise fun a b => a.startDate ≤ b.startDate

theorem sortsByStart_mergeSort :
    SortsByStart fun l => l.mergeSort fun a b => decide (a.startDate ≤ b.startDate) where
  perm l := List.mergeSort_perm l _
  sorted l := by
    refine (List.pairwise_mergeSort (fun a b c hab hbc => ?_) (fun a b => ?_) l).imp fun {a b} hab => ?_
    · rw [decide_eq_true_iff] at hab hbc ⊢
      exact hab.trans hbc
    · rw [Bool.or_eq_true, decide_eq_true_iff, decide_eq_true_iff]
      exact le_total _ _
    · rwa [decide_eq_true_iff] at hab

namespace InstrumentMap

/-- `Insert`, over what `std::sort` makes of the intervals. -/
def insertBy (sort : List MappingInterval → List MappingInterval) (instrumentId : UInt32) (symbol : Symbol)
    (start stop : TradingDate) (m : InstrumentMap) : InstrumentMap :=
  { mappings := Function.update m.mappings instrumentId
      (some (sort ((m.mappings instrumentId).getD [] ++ [⟨start, stop, symbol⟩])))
    storage := m.storage.storeMapping instrumentId symbol start stop }

/-- `Insert`.  `std::sort` by start date. -/
def insert (instrumentId : UInt32) (symbol : Symbol) (start stop : TradingDate) (m : InstrumentMap) :
    InstrumentMap :=
  let intervals := (m.mappings instrumentId).getD [] ++ [⟨start, stop, symbol⟩]
  { mappings := Function.update m.mappings instrumentId
      (some (intervals.mergeSort fun a b => decide (a.startDate ≤ b.startDate)))
    storage := m.storage.storeMapping instrumentId symbol start stop }

/-- The search of `Resolve` among the intervals of an instrument. -/
def search (intervals : List MappingInterval) (date : TradingDate) : Option Symbol :=
  let it := upperBound (fun interval => date.lt interval.startDate) intervals
  if it = 0 then none
  else
    match intervals[it - 1]? with
    | none => none
    | some interval =>
      if interval.startDate.le date && date.lt interval.endDate then some interval.symbol else none

/-- `Resolve`, with the storage after it. -/
def resolve (pick : List Row → Option Row) (instrumentId : UInt32) (date : TradingDate) (m : InstrumentMap) :
    Option Symbol × DuckDbStorage :=
  match m.mappings instrumentId with
  | none => m.storage.lookupSymbol pick instrumentId date
  | some intervals => (search intervals date, m.storage)

end InstrumentMap

/-! ### Sequences of calls -/

/-- The arguments of a call of `Insert`. -/
structure Mapping where
  instrumentId : UInt32
  symbol : Symbol
  start : TradingDate
  stop : TradingDate
deriving DecidableEq

/-- One call of `Insert`. -/
def insertOne (m : InstrumentMap) (i : Mapping) : InstrumentMap := m.insert i.instrumentId i.symbol i.start i.stop

/-- One call of `Insert`, over what `std::sort` does. -/
def insertOneBy (sort : List MappingInterval → List MappingInterval) (m : InstrumentMap) (i : Mapping) :
    InstrumentMap := m.insertBy sort i.instrumentId i.symbol i.start i.stop

/-- A new map over an empty storage, after the calls. -/
def populate (maxMappings : ℕ) (calls : List Mapping) : InstrumentMap :=
  Runs.run insertOne { storage := { maxMappings } } calls

/-- A new map over a storage that is in use. -/
def fresh (s : DuckDbStorage) : InstrumentMap := { storage := s }

/-- A new map over any storage, after the calls. -/
def populateBy (sort : List MappingInterval → List MappingInterval) (s : DuckDbStorage) (calls : List Mapping) :
    InstrumentMap := Runs.run (insertOneBy sort) (fresh s) calls

theorem populate_eq (maxMappings : ℕ) (calls : List Mapping) :
    populate maxMappings calls =
      populateBy (fun l => l.mergeSort fun a b => decide (a.startDate ≤ b.startDate)) { maxMappings } calls := rfl

/-- Intervals are not empty, their years have four digits, and those of an instrument do not overlap. -/
structure Consistent (calls : List Mapping) : Prop where
  nonempty : ∀ i ∈ calls, i.start < i.stop
  fourDigits : ∀ i ∈ calls, i.start.FourDigits ∧ i.stop.FourDigits
  apart : calls.Pairwise fun i j => i.instrumentId = j.instrumentId → Apart Mapping.start Mapping.stop i j

/-- The mapping holds for the instrument on the date. -/
def Holds (instrumentId : UInt32) (date : TradingDate) (i : Mapping) : Prop :=
  i.instrumentId = instrumentId ∧ Covers Mapping.start Mapping.stop i date

instance (instrumentId : UInt32) (date : TradingDate) (i : Mapping) : Decidable (Holds instrumentId date i) :=
  inferInstanceAs (Decidable (_ ∧ _))

/-- **What the mappings say**: the symbol of the mapping that holds, if one does. -/
def symbolOn (calls : List Mapping) (instrumentId : UInt32) (date : TradingDate) : Option Symbol :=
  (calls.find? fun i => decide (Holds instrumentId date i)).map Mapping.symbol

namespace Consistent

variable {calls : List Mapping}

theorem of_append {i : Mapping} (h : Consistent (calls ++ [i])) : Consistent calls where
  nonempty j hj := h.nonempty j (List.mem_append_left _ hj)
  fourDigits j hj := h.fourDigits j (List.mem_append_left _ hj)
  apart := (List.pairwise_append.mp h.apart).1

/-- Two mappings of an instrument are one or apart. -/
theorem eq_or_apart (h : Consistent calls) {i j : Mapping} (hi : i ∈ calls) (hj : j ∈ calls)
    (hid : i.instrumentId = j.instrumentId) : i = j ∨ Apart Mapping.start Mapping.stop i j := by
  by_cases heq : i = j
  · exact Or.inl heq
  · have : Std.Symm fun i j : Mapping => i.instrumentId = j.instrumentId → Apart Mapping.start Mapping.stop i j :=
      ⟨fun _ _ hij h => Or.symm (hij h.symm)⟩
    exact Or.inr (h.apart.forall hi hj heq hid)

/-- At most one mapping holds. -/
theorem holds_unique (h : Consistent calls) {instrumentId : UInt32} {date : TradingDate} {i j : Mapping}
    (hi : i ∈ calls) (hj : j ∈ calls) (hhi : Holds instrumentId date i) (hhj : Holds instrumentId date j) : i = j :=
  (h.eq_or_apart hi hj (hhi.1.trans hhj.1.symm)).resolve_right fun hapart => hapart.not_covers hhi.2 hhj.2

theorem symbolOn_of_holds (h : Consistent calls) {instrumentId : UInt32} {date : TradingDate} {i : Mapping}
    (hi : i ∈ calls) (hholds : Holds instrumentId date i) : symbolOn calls instrumentId date = some i.symbol := by
  rw [symbolOn]
  cases hfind : calls.find? fun i => decide (Holds instrumentId date i) with
  | none =>
      rw [List.find?_eq_none] at hfind
      exact absurd (decide_eq_true hholds) (hfind i hi)
  | some j =>
      have hj := List.find?_some hfind
      rw [h.holds_unique hi (List.mem_of_find?_eq_some hfind) hholds (of_decide_eq_true hj)]
      rfl

theorem symbolOn_eq_none {instrumentId : UInt32} {date : TradingDate}
    (h : ∀ i ∈ calls, ¬ Holds instrumentId date i) : symbolOn calls instrumentId date = none := by
  rw [symbolOn, List.find?_eq_none.mpr fun i hi => by simpa using h i hi]
  rfl

end Consistent

/-! ### In memory -/

/-- **The search** answers with the last interval that starts on the date or before, if it covers the date. -/
theorem search_spec {intervals : List MappingInterval} (date : TradingDate)
    (hsorted : intervals.Pairwise fun a b => a.startDate ≤ b.startDate) :
    ∃ r ≤ intervals.length, (∀ k a, intervals[k]? = some a → (a.startDate ≤ date ↔ k < r)) ∧
      ∀ symbol, InstrumentMap.search intervals date = some symbol ↔
        ∃ a, intervals[r - 1]? = some a ∧ Covers MappingInterval.startDate MappingInterval.endDate a date ∧
          a.symbol = symbol := by
  have hmono : intervals.Pairwise fun x y => date.lt x.startDate = true → date.lt y.startDate = true :=
    hsorted.imp fun {x y} hxy h => by
      rw [TradingDate.lt_eq, decide_eq_true_iff] at h ⊢
      exact h.trans_le hxy
  have hparts := upperBound_spec hmono
  unfold InstrumentMap.search
  generalize upperBound (fun interval : MappingInterval => date.lt interval.startDate) intervals = r at hparts
  have hbefore : ∀ k a, intervals[k]? = some a → (a.startDate ≤ date ↔ k < r) := by
    intro k a ha
    rcases Nat.lt_or_ge k r with hlt | hge
    · have hbelow := hparts.below k hlt a ha
      rw [TradingDate.lt_eq, decide_eq_false_iff_not, not_lt] at hbelow
      exact iff_of_true hbelow hlt
    · have habove := hparts.above k hge a ha
      rw [TradingDate.lt_eq, decide_eq_true_iff] at habove
      exact iff_of_false (not_le.mpr habove) (Nat.not_lt.mpr hge)
  refine ⟨r, hparts.le, hbefore, fun symbol => ?_⟩
  have hcheck : ∀ a : MappingInterval, (a.startDate.le date && date.lt a.endDate) = true ↔
      Covers MappingInterval.startDate MappingInterval.endDate a date := by
    intro a
    rw [Bool.and_eq_true, TradingDate.le_eq, TradingDate.lt_eq, decide_eq_true_iff, decide_eq_true_iff]
    rfl
  constructor
  · intro h
    dsimp only at h
    split at h
    · cases h
    · split at h
      · cases h
      · rename_i a ha
        split at h
        · rename_i hcovers
          exact ⟨a, ha, (hcheck a).mp hcovers, Option.some.inj h⟩
        · cases h
  · rintro ⟨a, ha, hcovers, rfl⟩
    have hpos := (hbefore _ a ha).mp hcovers.1
    dsimp only
    rw [if_neg (by omega), ha]
    exact if_pos ((hcheck a).mpr hcovers)

/-- An interval that covers the date is found, where no other one starts between its start and the date. -/
theorem search_of_covers {intervals : List MappingInterval} {date : TradingDate}
    (hsorted : intervals.Pairwise fun a b => a.startDate ≤ b.startDate) {a : MappingInterval} (ha : a ∈ intervals)
    (hcovers : Covers MappingInterval.startDate MappingInterval.endDate a date)
    (hlast : ∀ b ∈ intervals, a.startDate ≤ b.startDate → b.startDate ≤ date → b = a) :
    InstrumentMap.search intervals date = some a.symbol := by
  obtain ⟨r, hle, hbefore, hsearch⟩ := search_spec date hsorted
  obtain ⟨k, hk⟩ := List.mem_iff_getElem?.mp ha
  have hkr := (hbefore k a hk).mp hcovers.1
  have hlt : r - 1 < intervals.length := by omega
  have hget : intervals[r - 1]? = some intervals[r - 1] := List.getElem?_eq_getElem hlt
  have hstart : a.startDate ≤ intervals[r - 1].startDate :=
    getElem?_pairwise (fun b => le_refl b.startDate) hsorted (Nat.le_sub_one_of_lt hkr) hk hget
  have heq := hlast _ (List.getElem_mem hlt) hstart ((hbefore _ _ hget).mpr (by omega))
  exact (hsearch a.symbol).mpr ⟨a, by rw [hget, heq], hcovers, rfl⟩

/-- The search finds nothing where no interval covers the date. -/
theorem search_eq_none {intervals : List MappingInterval} {date : TradingDate}
    (hsorted : intervals.Pairwise fun a b => a.startDate ≤ b.startDate)
    (h : ∀ a ∈ intervals, ¬ Covers MappingInterval.startDate MappingInterval.endDate a date) :
    InstrumentMap.search intervals date = none := by
  obtain ⟨r, -, -, hsearch⟩ := search_spec date hsorted
  refine Option.eq_none_iff_forall_ne_some.mpr fun symbol hsome => ?_
  obtain ⟨a, ha, hcovers, -⟩ := (hsearch symbol).mp hsome
  exact h a (List.mem_of_getElem? ha) hcovers

/-- The interval of a mapping. -/
def Mapping.interval (i : Mapping) : MappingInterval := ⟨i.start, i.stop, i.symbol⟩

/-- The intervals the map holds for an instrument. -/
def InstrumentMap.held (m : InstrumentMap) (instrumentId : UInt32) : List MappingInterval :=
  (m.mappings instrumentId).getD []

/-- The map holds the intervals of the calls, sorted. -/
structure Remembers (calls : List Mapping) (m : InstrumentMap) : Prop where
  sorted : ∀ instrumentId, (m.held instrumentId).Pairwise fun a b => a.startDate ≤ b.startDate
  mem : ∀ instrumentId a, a ∈ m.held instrumentId ↔ ∃ i ∈ calls, i.instrumentId = instrumentId ∧ i.interval = a

section insertBy

variable {sort : List MappingInterval → List MappingInterval}

theorem held_insertOneBy (m : InstrumentMap) (i : Mapping) (instrumentId : UInt32) :
    (insertOneBy sort m i).held instrumentId =
      if instrumentId = i.instrumentId then sort (m.held i.instrumentId ++ [i.interval])
      else m.held instrumentId := by
  simp only [InstrumentMap.held, insertOneBy, InstrumentMap.insertBy]
  by_cases hid : instrumentId = i.instrumentId
  · rw [hid, if_pos rfl, Function.update_self]
    rfl
  · rw [if_neg hid, Function.update_of_ne hid]

/-- What every sorted list meets, the intervals of every instrument meet. -/
theorem pairwise_held_populateBy {r : MappingInterval → MappingInterval → Prop} (hsort : ∀ l, (sort l).Pairwise r)
    (s : DuckDbStorage) (calls : List Mapping) (instrumentId : UInt32) :
    ((populateBy sort s calls).held instrumentId).Pairwise r := by
  have hstep : ∀ (m : InstrumentMap) (i : Mapping), (∀ instrumentId, (m.held instrumentId).Pairwise r) →
      ∀ instrumentId, ((insertOneBy sort m i).held instrumentId).Pairwise r := by
    intro m i hm instrumentId
    rw [held_insertOneBy]
    split
    · exact hsort _
    · exact hm instrumentId
  have hinit : ∀ instrumentId, ((fresh s).held instrumentId).Pairwise r := fun _ => List.Pairwise.nil
  exact Runs.run_invariant hstep hinit calls instrumentId

/-- The map holds the intervals of the calls. -/
theorem mem_held_populateBy (hsort : ∀ l, (sort l).Perm l) (s : DuckDbStorage) (calls : List Mapping)
    (instrumentId : UInt32) (a : MappingInterval) :
    a ∈ (populateBy sort s calls).held instrumentId ↔
      ∃ i ∈ calls, i.instrumentId = instrumentId ∧ i.interval = a := by
  induction calls using List.reverseRecOn with
  | nil => simp [populateBy, fresh, InstrumentMap.held]
  | append_singleton calls i ih =>
      simp only [List.mem_append, List.mem_singleton, or_and_right, exists_or, exists_eq_left]
      rw [populateBy, Runs.run_concat, held_insertOneBy, ← ih]
      split
      · rename_i hid
        rw [(hsort _).mem_iff, List.mem_append, List.mem_singleton, hid, eq_comm (a := a)]
        simp only [true_and, populateBy]
      · rename_i hid
        simp only [Ne.symm hid, false_and, or_false, populateBy]

end insertBy

theorem remembers_populate (maxMappings : ℕ) (calls : List Mapping) : Remembers calls (populate maxMappings calls) where
  sorted := pairwise_held_populateBy sortsByStart_mergeSort.sorted { maxMappings } calls
  mem := mem_held_populateBy sortsByStart_mergeSort.perm { maxMappings } calls

/-! ### In the storage -/

/-- The row of a mapping, whatever its access count. -/
def RowOf (i : Mapping) (r : Row) : Prop :=
  r.instrumentId = i.instrumentId.toNat ∧ r.symbol = i.symbol ∧ r.startDate = i.start.toIsoString ∧
    r.endDate = i.stop.toIsoString

/-- The storage holds one row for each call. -/
structure Stores (maxMappings : ℕ) (calls : List Mapping) (s : DuckDbStorage) : Prop where
  limit : s.maxMappings = maxMappings
  length : s.rows.length = calls.length
  row : ∀ i ∈ calls, ∃ r ∈ s.rows, RowOf i r
  call : ∀ r ∈ s.rows, ∃ i ∈ calls, RowOf i r

/-- **A mapping more is a row more**, as long as the storage need not evict any. -/
theorem stores_insertOne {maxMappings : ℕ} {calls : List Mapping} {m : InstrumentMap} {i : Mapping}
    (h : Stores maxMappings calls m.storage) (hcalls : Consistent (calls ++ [i]))
    (hroom : maxMappings = 0 ∨ calls.length < maxMappings) :
    Stores maxMappings (calls ++ [i]) (insertOne m i).storage := by
  have hi : i ∈ calls ++ [i] := List.mem_append_right _ (List.mem_singleton.mpr rfl)
  have hnew : ∀ r ∈ m.storage.rows, r.instrumentId = i.instrumentId.toNat → r.startDate ≠ i.start.toIsoString := by
    intro r hr hid hstart
    obtain ⟨j, hj, hrow⟩ := h.call r hr
    have hj' : j ∈ calls ++ [i] := List.mem_append_left _ hj
    have hsame : j.instrumentId = i.instrumentId := UInt32.toNat_inj.mp (hrow.1.symm.trans hid)
    have hstart' : j.start = i.start :=
      (TradingDate.toIsoString_inj (hcalls.fourDigits j hj').1 (hcalls.fourDigits i hi).1).mp
        (hrow.2.2.1.symm.trans hstart)
    have hapart := (List.pairwise_append.mp hcalls.apart).2.2 j hj i (List.mem_singleton.mpr rfl) hsame
    have hji := hcalls.nonempty j hj'
    have hii := hcalls.nonempty i hi
    rcases hapart with hle | hle
    · exact absurd (hji.trans_le (hle.trans_eq hstart'.symm)) (lt_irrefl _)
    · exact absurd (hii.trans_le (hle.trans_eq hstart')) (lt_irrefl _)
  have hstore : (insertOne m i).storage = _ :=
    storeMapping_new (by rw [h.limit, h.length]; exact hroom) hnew
  rw [hstore]
  refine ⟨h.limit, ?_, fun j hj => ?_, fun r hr => ?_⟩
  · rw [List.length_append, List.length_append, h.length]
    rfl
  · rcases List.mem_append.mp hj with hj | hj
    · obtain ⟨r, hr, hrow⟩ := h.row j hj
      exact ⟨r, List.mem_append_left _ hr, hrow⟩
    · rw [List.mem_singleton.mp hj]
      exact ⟨_, List.mem_append_right _ (List.mem_singleton.mpr rfl), rfl, rfl, rfl, rfl⟩
  · rcases List.mem_append.mp hr with hr | hr
    · obtain ⟨j, hj, hrow⟩ := h.call r hr
      exact ⟨j, List.mem_append_left _ hj, hrow⟩
    · rw [List.mem_singleton.mp hr]
      exact ⟨i, hi, rfl, rfl, rfl, rfl⟩

theorem stores_populate {maxMappings : ℕ} {calls : List Mapping} (h : Consistent calls)
    (hroom : maxMappings = 0 ∨ calls.length ≤ maxMappings) :
    Stores maxMappings calls (populate maxMappings calls).storage := by
  induction calls using List.reverseRecOn with
  | nil =>
      exact ⟨rfl, rfl, fun i hi => absurd hi List.not_mem_nil, fun r hr => absurd hr List.not_mem_nil⟩
  | append_singleton calls i ih =>
      rw [List.length_append, List.length_singleton] at hroom
      rw [populate, Runs.run_concat]
      exact stores_insertOne (ih h.of_append (hroom.imp_right fun hle => by omega)) h
        (hroom.imp_right fun hle => by omega)

/-! ### Resolving a date -/

section resolving

variable {maxMappings : ℕ} {calls : List Mapping} (hcalls : Consistent calls)
  (hroom : maxMappings = 0 ∨ calls.length ≤ maxMappings) (instrumentId : UInt32) {date : TradingDate}
  (hdate : date.FourDigits)

include hcalls hroom hdate

/-- **The rows that the query matches** are those of the mappings that hold, and of those that end on the date. -/
theorem mem_matching_populate {r : Row} :
    r ∈ (populate maxMappings calls).storage.matching instrumentId date ↔
      r ∈ (populate maxMappings calls).storage.rows ∧ ∃ i ∈ calls, RowOf i r ∧ i.instrumentId = instrumentId ∧
        (Holds instrumentId date i ∨ i.stop = date) := by
  rw [mem_matching]
  refine and_congr_right fun hr => ?_
  constructor
  · rintro ⟨hid, hstart, hstop⟩
    obtain ⟨i, hi, hrow⟩ := (stores_populate hcalls hroom).call r hr
    have hsame : i.instrumentId = instrumentId := UInt32.toNat_inj.mp (hrow.1.symm.trans hid)
    rw [hrow.2.2.1, TradingDate.toIsoString_le (hcalls.fourDigits i hi).1 hdate] at hstart
    rw [hrow.2.2.2, TradingDate.toIsoString_le hdate (hcalls.fourDigits i hi).2] at hstop
    refine ⟨i, hi, hrow, hsame, ?_⟩
    rcases lt_or_eq_of_le hstop with hlt | heq
    · exact Or.inl ⟨hsame, hstart, hlt⟩
    · exact Or.inr heq.symm
  · rintro ⟨i, hi, hrow, hid, hcase⟩
    rw [hrow.1, hrow.2.2.1, hrow.2.2.2, TradingDate.toIsoString_le (hcalls.fourDigits i hi).1 hdate,
      TradingDate.toIsoString_le hdate (hcalls.fourDigits i hi).2, hid]
    rcases hcase with hholds | heq
    · exact ⟨rfl, hholds.2.1, hholds.2.2.le⟩
    · exact ⟨rfl, heq ▸ (hcalls.nonempty i hi).le, heq.symm.le⟩

/-- The query answers with one of the rows it matches. -/
theorem lookupSymbol_populate {pick : List Row → Option Row} (hpick : LimitOne pick) :
    let s := (populate maxMappings calls).storage
    (s.matching instrumentId date = [] ∧ (s.lookupSymbol pick instrumentId date).1 = none) ∨
      ∃ i ∈ calls, i.instrumentId = instrumentId ∧ (Holds instrumentId date i ∨ i.stop = date) ∧
        (s.lookupSymbol pick instrumentId date).1 = some i.symbol := by
  intro s
  rw [lookupSymbol_fst]
  by_cases hnil : s.matching instrumentId date = []
  · left
    rw [hnil, hpick.nil]
    exact ⟨rfl, rfl⟩
  · right
    obtain ⟨row, hrow, hsome⟩ := hpick.mem _ hnil
    obtain ⟨-, i, hi, hof, hid, hcase⟩ := (mem_matching_populate hcalls hroom instrumentId hdate).mp hrow
    refine ⟨i, hi, hid, hcase, ?_⟩
    rw [hsome, Option.map_some, hof.2.1]

/-- **The map resolves as the mappings say.** -/
theorem resolve_populate {pick : List Row → Option Row} (hpick : LimitOne pick) :
    ((populate maxMappings calls).resolve pick instrumentId date).1 = symbolOn calls instrumentId date := by
  have hmem := (remembers_populate maxMappings calls).mem instrumentId
  have hsorted := (remembers_populate maxMappings calls).sorted instrumentId
  rw [InstrumentMap.resolve]
  rw [InstrumentMap.held] at hmem hsorted
  cases hm : (populate maxMappings calls).mappings instrumentId with
  | none =>
      rw [hm] at hmem
      have hno : ∀ i ∈ calls, i.instrumentId ≠ instrumentId :=
        fun i hi hid => List.not_mem_nil ((hmem i.interval).mpr ⟨i, hi, hid, rfl⟩)
      rw [Consistent.symbolOn_eq_none fun i hi hholds => hno i hi hholds.1]
      rcases lookupSymbol_populate hcalls hroom instrumentId hdate hpick with ⟨-, h⟩ | ⟨i, hi, hid, -⟩
      · exact h
      · exact absurd hid (hno i hi)
  | some intervals =>
      rw [hm, Option.getD_some] at hmem hsorted
      by_cases hholds : ∃ i ∈ calls, Holds instrumentId date i
      · obtain ⟨i, hi, hholds⟩ := hholds
        rw [hcalls.symbolOn_of_holds hi hholds]
        refine search_of_covers (a := i.interval) hsorted ((hmem _).mpr ⟨i, hi, hholds.1, rfl⟩) hholds.2
          fun b hb hstart hle => ?_
        obtain ⟨j, hj, hjid, rfl⟩ := (hmem b).mp hb
        -- both mappings hold where the later one starts
        have hjholds : Holds instrumentId j.start j := ⟨hjid, le_refl _, hcalls.nonempty j hj⟩
        rw [hcalls.holds_unique hj hi hjholds ⟨hholds.1, hstart, lt_of_le_of_lt hle hholds.2.2⟩]
      · rw [Consistent.symbolOn_eq_none fun i hi h => hholds ⟨i, hi, h⟩]
        refine search_eq_none hsorted fun a ha hcovers => ?_
        obtain ⟨j, hj, hjid, rfl⟩ := (hmem a).mp ha
        exact hholds ⟨j, hj, hjid, hcovers⟩

/-- **Memory and storage resolve alike**, whichever row the query gives, exactly where every interval that ends on
the date is followed by one of the same symbol. -/
theorem resolve_alike_iff :
    (∀ pick, LimitOne pick →
      ((populate maxMappings calls).resolve pick instrumentId date).1 =
          ((fresh (populate maxMappings calls).storage).resolve pick instrumentId date).1 ∧
        ((populate maxMappings calls).storage.lookupSymbol pick instrumentId date).1 =
          symbolOn calls instrumentId date) ↔
      ∀ i ∈ calls, i.instrumentId = instrumentId → i.stop = date →
        ∃ j ∈ calls, j.instrumentId = instrumentId ∧ j.start = date ∧ j.symbol = i.symbol := by
  constructor
  · intro h i hi hid hstop
    obtain ⟨r, hr, hof⟩ := (stores_populate hcalls hroom).row i hi
    have hmatch : r ∈ (populate maxMappings calls).storage.matching instrumentId date :=
      (mem_matching_populate hcalls hroom instrumentId hdate).mpr ⟨hr, i, hi, hof, hid, Or.inr hstop⟩
    have hsymbol := (h _ (limitOne_prefer r)).2
    rw [lookupSymbol_fst, if_pos hmatch, Option.map_some, hof.2.1, symbolOn] at hsymbol
    obtain ⟨j, hfind, hj⟩ := Option.map_eq_some_iff.mp hsymbol.symm
    have hjmem := List.mem_of_find?_eq_some hfind
    have hfound := List.find?_some hfind
    have hholds : Holds instrumentId date j := of_decide_eq_true hfound
    refine ⟨j, hjmem, hholds.1, ?_, hj⟩
    rcases hcalls.eq_or_apart hi hjmem (hid.trans hholds.1.symm) with rfl | hapart
    · exact absurd (hholds.2.2.trans_eq hstop) (lt_irrefl _)
    · rw [← hstop] at hholds ⊢
      exact hapart.start_eq_of_covers_stop (hcalls.nonempty i hi) hholds.2
  · intro h pick hpick
    rw [resolve_populate hcalls hroom instrumentId hdate hpick]
    suffices hlookup : ((populate maxMappings calls).storage.lookupSymbol pick instrumentId date).1 =
        symbolOn calls instrumentId date from ⟨hlookup.symm, hlookup⟩
    rcases lookupSymbol_populate hcalls hroom instrumentId hdate hpick with ⟨hnil, hnone⟩ | ⟨i, hi, hid, hcase, hsome⟩
    · rw [hnone, Consistent.symbolOn_eq_none]
      intro i hi hholds
      obtain ⟨r, hr, hof⟩ := (stores_populate hcalls hroom).row i hi
      have hmatch := (mem_matching_populate hcalls hroom instrumentId hdate).mpr
        ⟨hr, i, hi, hof, hholds.1, Or.inl hholds⟩
      rw [hnil] at hmatch
      exact List.not_mem_nil hmatch
    · rw [hsome]
      rcases hcase with hholds | hstop
      · exact (hcalls.symbolOn_of_holds hi hholds).symm
      · obtain ⟨j, hj, hjid, hstart, hsymbol⟩ := h i hi hid hstop
        rw [← hsymbol]
        refine (hcalls.symbolOn_of_holds hj ⟨hjid, hstart.le, ?_⟩).symm
        exact hstart ▸ hcalls.nonempty j hj

end resolving

/-- An instrument number used for one symbol until the 15th, and for another one from then on. -/
def recycled : List Mapping :=
  [⟨42, ['O', 'L', 'D'], ⟨2025, 1, 1, by decide⟩, ⟨2025, 1, 15, by decide⟩⟩,
    ⟨42, ['N', 'E', 'W'], ⟨2025, 1, 15, by decide⟩, ⟨2025, 1, 31, by decide⟩⟩]

theorem consistent_recycled : Consistent recycled where
  nonempty := by decide
  fourDigits := by decide
  apart := by decide

/-- On the 10th memory and storage agree about it. -/
theorem resolve_alike_recycled :
    ((populate 0 recycled).resolve List.head? 42 ⟨2025, 1, 10, by decide⟩).1 =
      ((fresh (populate 0 recycled).storage).resolve List.head? 42 ⟨2025, 1, 10, by decide⟩).1 :=
  ((resolve_alike_iff consistent_recycled (Or.inl rfl) 42 (by decide)).mpr (by decide) List.head? limitOne_head).1

/-- **A fresh map resolves the end of an interval.**  On the 31st the populated map says that there is no symbol,
and the storage says `NEW`; on the 15th the storage may still say `OLD`. -/
theorem resolve_not_alike :
    ¬ ∀ (maxMappings : ℕ) (calls : List Mapping), Consistent calls → maxMappings = 0 ∨ calls.length ≤ maxMappings →
      ∀ (instrumentId : UInt32) (date : TradingDate), date.FourDigits →
        ∀ pick, LimitOne pick →
          ((populate maxMappings calls).resolve pick instrumentId date).1 =
            ((fresh (populate maxMappings calls).storage).resolve pick instrumentId date).1 := by
  intro h
  have halike := h 0 recycled consistent_recycled (Or.inl rfl) 42 ⟨2025, 1, 31, by decide⟩ (by decide) List.head?
    limitOne_head
  rw [resolve_populate consistent_recycled (Or.inl rfl) 42 (by decide) limitOne_head] at halike
  have hmemory : symbolOn recycled 42 ⟨2025, 1, 31, by decide⟩ = none := by decide
  have hstorage : ((fresh (populate 0 recycled).storage).resolve List.head? 42 ⟨2025, 1, 31, by decide⟩).1 =
      some ['N', 'E', 'W'] := by decide
  rw [hmemory, hstorage] at halike
  exact absurd halike (by decide)

end DbnPipe.Storage
