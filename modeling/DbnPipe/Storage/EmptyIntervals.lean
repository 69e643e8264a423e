import DbnPipe.Storage.InstrumentMap
import Mathlib.Data.Prod.Lex

/-!
# Empty intervals in the instrument map

`Insert` asserts `start <= end`, so it admits an interval that covers no date.  `Resolve` looks at one interval only,
the last that starts by the date, and an empty one there hides the one around it.

* `Admitted`, `DisjointIntervals` — the calls that the map is documented for;
* `FindsCovering` — the map is sorted, and **resolves every date as the intervals cover it**;
* `Clear` — no empty interval starts inside another one;
* `findsCovering_iff` — the map finds what covers a date, however `std::sort` orders equal starts, **exactly when**
  the calls are clear.
-/

namespace DbnPipe.Storage

open Intervals

/-- The assertion of `Insert` holds of every call. -/
def Admitted (calls : List Mapping) : Prop := ∀ i ∈ calls, i.start ≤ i.stop

/-- No date is in two of an instrument's intervals. -/
def DisjointIntervals (calls : List Mapping) : Prop :=
  calls.Pairwise fun i j => i.instrumentId = j.instrumentId →
    ∀ date, ¬ (Covers Mapping.start Mapping.stop i date ∧ Covers Mapping.start Mapping.stop j date)

/-- The map finds the interval that covers the date, for every instrument it has in memory. -/
structure FindsCovering (calls : List Mapping) (m : InstrumentMap) : Prop where
  sorted : ∀ instrumentId intervals, m.mappings instrumentId = some intervals →
    intervals.Pairwise fun a b => a.startDate ≤ b.startDate
  resolves : ∀ instrumentId, (m.mappings instrumentId).isSome → ∀ pick date symbol,
    (m.resolve pick instrumentId date).1 = some symbol ↔ ∃ i ∈ calls, Holds instrumentId date i ∧ i.symbol = symbol

/-- No empty interval starts inside another one of its instrument. -/
def Clear (calls : List Mapping) : Prop :=
  ∀ i ∈ calls, ∀ j ∈ calls, i.instrumentId = j.instrumentId → i.start = i.stop →
    ¬ Covers Mapping.start Mapping.stop j i.start

instance (calls : List Mapping) : Decidable (Admitted calls) := inferInstanceAs (Decidable (∀ i ∈ calls, _))

instance (calls : List Mapping) : Decidable (Clear calls) :=
  inferInstanceAs (Decidable (∀ i ∈ calls, ∀ j ∈ calls, _))

/-- Two mappings of an instrument that cover a date are one. -/
theorem DisjointIntervals.unique {calls : List Mapping} (h : DisjointIntervals calls) {i j : Mapping}
    (hi : i ∈ calls) (hj : j ∈ calls) (hid : i.instrumentId = j.instrumentId) {date : TradingDate}
    (hci : Covers Mapping.start Mapping.stop i date)
    (hcj : Covers Mapping.start Mapping.stop j date) : i = j := by
  by_contra hne
  have hsymm : Std.Symm fun i j : Mapping => i.instrumentId = j.instrumentId →
      ∀ date, ¬ (Covers Mapping.start Mapping.stop i date ∧ Covers Mapping.start Mapping.stop j date) :=
    ⟨fun _ _ hij heq date hboth => hij heq.symm date hboth.symm⟩
  exact List.Pairwise.forall h hi hj hne hid date ⟨hci, hcj⟩

section populateBy

variable {sort : List MappingInterval → List MappingInterval} (hsort : SortsByStart sort) (s : DuckDbStorage)
  {calls : List Mapping}

include hsort

/-- The intervals of an instrument in memory are sorted, and those of its calls. -/
theorem intervals_populateBy {instrumentId : UInt32} {intervals : List MappingInterval}
    (hm : (populateBy sort s calls).mappings instrumentId = some intervals) :
    (intervals.Pairwise fun a b => a.startDate ≤ b.startDate) ∧
      ∀ a, a ∈ intervals ↔ ∃ i ∈ calls, i.instrumentId = instrumentId ∧ i.interval = a := by
  have hheld : (populateBy sort s calls).held instrumentId = intervals := by
    rw [InstrumentMap.held, hm, Option.getD_some]
  constructor
  · rw [← hheld]
    exact pairwise_held_populateBy hsort.sorted s calls instrumentId
  · intro a
    rw [← hheld]
    exact mem_held_populateBy hsort.perm s calls instrumentId a

/-- **Clear calls are found**, whatever order `std::sort` leaves equal starts in. -/
theorem findsCovering_of_clear (hle : Admitted calls) (hdisjoint : DisjointIntervals calls) (hclear : Clear calls) :
    FindsCovering calls (populateBy sort s calls) := by
  constructor
  · intro instrumentId intervals hm
    exact (intervals_populateBy hsort s hm).1
  · intro instrumentId hsome pick date symbol
    obtain ⟨intervals, hm⟩ := Option.isSome_iff_exists.mp hsome
    obtain ⟨hsorted, hmem⟩ := intervals_populateBy hsort s hm
    rw [InstrumentMap.resolve, hm]
    simp only
    constructor
    · intro hsearch
      obtain ⟨r, -, -, hspec⟩ := search_spec date hsorted
      obtain ⟨a, ha, hcovers, rfl⟩ := (hspec symbol).mp hsearch
      obtain ⟨i, hi, hid, rfl⟩ := (hmem a).mp (List.mem_of_getElem? ha)
      exact ⟨i, hi, ⟨hid, hcovers⟩, rfl⟩
    · rintro ⟨i, hi, ⟨hid, hcovers⟩, rfl⟩
      refine search_of_covers (a := i.interval) hsorted ((hmem _).mpr ⟨i, hi, hid, rfl⟩) hcovers
        fun b hb hstart hby => ?_
      obtain ⟨j, hj, hjid, rfl⟩ := (hmem b).mp hb
      have hinside : Covers Mapping.start Mapping.stop i j.start := ⟨hstart, lt_of_le_of_lt hby hcovers.2⟩
      have hjcovers : Covers Mapping.start Mapping.stop j j.start := by
        refine ⟨le_refl _, lt_of_le_of_ne (hle j hj) fun hempty => ?_⟩
        exact hclear j hj i hi (hjid.trans hid.symm) hempty hinside
      rw [hdisjoint.unique hj hi (hjid.trans hid.symm) hjcovers hinside]

/-- What the map finds on the day a mapping starts stands at the mapping's place or behind it. -/
theorem found_behind (h : FindsCovering calls (populateBy sort s calls)) {i j : Mapping} (hi : i ∈ calls)
    (hj : j ∈ calls) (hid : i.instrumentId = j.instrumentId) (hcovers : Covers Mapping.start Mapping.stop j i.start)
    {r : MappingInterval → MappingInterval → Prop} (hrefl : ∀ a, r a a) (hr : ∀ l, (sort l).Pairwise r) :
    ∃ a ∈ (populateBy sort s calls).held i.instrumentId, r i.interval a ∧
      Covers MappingInterval.startDate MappingInterval.endDate a i.start := by
  have hmem := (mem_held_populateBy hsort.perm s calls i.instrumentId i.interval).mpr ⟨i, hi, rfl, rfl⟩
  have hsorted := pairwise_held_populateBy hsort.sorted s calls i.instrumentId
  have hbehind := pairwise_held_populateBy hr s calls i.instrumentId
  cases hm : (populateBy sort s calls).mappings i.instrumentId with
  | none =>
      rw [InstrumentMap.held, hm] at hmem
      exact absurd hmem List.not_mem_nil
  | some intervals =>
      rw [InstrumentMap.held, hm, Option.getD_some] at hmem hsorted hbehind ⊢
      obtain ⟨k, hk⟩ := List.mem_iff_getElem?.mp hmem
      have hresolve := (h.resolves i.instrumentId (hm ▸ rfl) (fun _ => none) i.start j.symbol).mpr
        ⟨j, hj, ⟨hid.symm, hcovers⟩, rfl⟩
      rw [InstrumentMap.resolve, hm] at hresolve
      obtain ⟨n, -, hbefore, hspec⟩ := search_spec i.start hsorted
      obtain ⟨a, ha, hacovers, -⟩ := (hspec j.symbol).mp hresolve
      have hkn : k < n := (hbefore k i.interval hk).mp (le_refl i.start)
      exact ⟨a, List.mem_of_getElem? ha, getElem?_pairwise hrefl hbehind (Nat.le_sub_one_of_lt hkn) hk ha, hacovers⟩

/-- **What starts inside an interval hides it**, however the intervals are sorted: it can only be empty. -/
theorem not_findsCovering_of_inside (hdisjoint : DisjointIntervals calls) {i j : Mapping} (hi : i ∈ calls)
    (hj : j ∈ calls) (hid : i.instrumentId = j.instrumentId) (hstart : j.start < i.start) (hstop : i.start < j.stop) :
    ¬ FindsCovering calls (populateBy sort s calls) := by
  intro h
  obtain ⟨a, ha, hle, hacovers⟩ := found_behind hsort s h hi hj hid ⟨hstart.le, hstop⟩ (fun a => le_refl a.startDate)
    hsort.sorted
  obtain ⟨l, hl, hlid, rfl⟩ := (mem_held_populateBy hsort.perm s calls i.instrumentId a).mp ha
  -- the one found and the one around the empty one cover the same date
  have heq : l = j := hdisjoint.unique hl hj (hlid.trans hid) hacovers ⟨hstart.le, hstop⟩
  rw [heq] at hle
  exact absurd (hstart.trans_le hle) (lt_irrefl _)

end populateBy

/-! ### A sort that shows an empty interval -/

/-- An interval by its start, and behind the others of that start if it is empty. -/
def emptyLastKey (a : MappingInterval) : TradingDate ×ₗ ℕ :=
  toLex (a.startDate, if a.startDate < a.endDate then 0 else 1)

/-- A sort by start date that puts an empty interval behind another one of the same start. -/
def sortEmptyLast (l : List MappingInterval) : List MappingInterval :=
  l.mergeSort fun a b => decide (emptyLastKey a ≤ emptyLastKey b)

theorem pairwise_sortEmptyLast (l : List MappingInterval) :
    (sortEmptyLast l).Pairwise fun a b => emptyLastKey a ≤ emptyLastKey b := by
  refine (List.pairwise_mergeSort (fun a b c hab hbc => ?_) (fun a b => ?_) l).imp fun {a b} hab => ?_
  · rw [decide_eq_true_iff] at hab hbc ⊢
    exact hab.trans hbc
  · rw [Bool.or_eq_true, decide_eq_true_iff, decide_eq_true_iff]
    exact le_total _ _
  · rwa [decide_eq_true_iff] at hab

theorem startDate_le_of_emptyLastKey {a b : MappingInterval} (h : emptyLastKey a ≤ emptyLastKey b) :
    a.startDate ≤ b.startDate := by
  rcases Prod.Lex.toLex_le_toLex.mp h with hlt | heq
  · exact hlt.le
  · exact heq.1.le

theorem sortsByStart_sortEmptyLast : SortsByStart sortEmptyLast where
  perm l := List.mergeSort_perm l _
  sorted l := (pairwise_sortEmptyLast l).imp startDate_le_of_emptyLastKey

/-- What follows an empty interval with the same start is empty. -/
theorem empty_of_emptyLastKey {a b : MappingInterval} (h : emptyLastKey a ≤ emptyLastKey b)
    (ha : a.startDate = a.endDate) (hstart : b.startDate ≤ a.startDate) : ¬ b.startDate < b.endDate := by
  intro hb
  rcases Prod.Lex.toLex_le_toLex.mp h with hlt | ⟨-, hrank⟩
  · exact absurd (hlt.trans_le hstart) (lt_irrefl _)
  · simp only [ha, lt_irrefl, if_false, if_pos hb] at hrank
    omega

/-- An empty interval hides the one around it, if nothing but this sort decides. -/
theorem clear_of_findsCovering {s : DuckDbStorage} {calls : List Mapping}
    (h : FindsCovering calls (populateBy sortEmptyLast s calls)) : Clear calls := by
  intro i hi j hj hid hempty hcovers
  obtain ⟨a, -, hkey, hacovers⟩ := found_behind sortsByStart_sortEmptyLast s h hi hj hid hcovers
    (fun a => le_refl (emptyLastKey a)) pairwise_sortEmptyLast
  exact empty_of_emptyLastKey hkey hempty hacovers.1 (hacovers.1.trans_lt hacovers.2)

/-- **The map finds what covers a date exactly when the calls are clear**, for all that `std::sort` may do with
intervals of one start. -/
theorem findsCovering_iff (s : DuckDbStorage) {calls : List Mapping} (hle : Admitted calls)
    (hdisjoint : DisjointIntervals calls) :
    (∀ sort, SortsByStart sort → FindsCovering calls (populateBy sort s calls)) ↔ Clear calls := by
  constructor
  · intro h
    exact clear_of_findsCovering (h sortEmptyLast sortsByStart_sortEmptyLast)
  · intro hclear sort hsort
    exact findsCovering_of_clear hsort s hle hdisjoint hclear

theorem disjointIntervals_recycled : DisjointIntervals recycled :=
  consistent_recycled.apart.imp fun hapart hid _ hboth => (hapart hid).not_covers hboth.1 hboth.2

theorem findsCovering_recycled :
    FindsCovering recycled (populateBy (fun l => l.mergeSort fun a b => decide (a.startDate ≤ b.startDate)) {}
      recycled) :=
  (findsCovering_iff {} (by decide) disjointIntervals_recycled).mpr (by decide) _ sortsByStart_mergeSort

theorem valid_first : 1 ≤ 1 ∧ 1 ≤ 12 ∧ 1 ≤ 1 ∧ 1 ≤ 31 := by decide

theorem valid_middle : 1 ≤ 1 ∧ 1 ≤ 12 ∧ 1 ≤ 15 ∧ 15 ≤ 31 := by decide

theorem valid_last : 1 ≤ 1 ∧ 1 ≤ 12 ∧ 1 ≤ 31 ∧ 31 ≤ 31 := by decide

/-- `A` for January, and `B` for no day of it. -/
def hidden : List Mapping :=
  [⟨42, ['A'], ⟨2025, 1, 1, valid_first⟩, ⟨2025, 1, 31, valid_last⟩⟩,
    ⟨42, ['B'], ⟨2025, 1, 15, valid_middle⟩, ⟨2025, 1, 15, valid_middle⟩⟩]

/-- **The second interval hides the first one**, from the day it starts on, however they are sorted. -/
theorem not_findsCovering_hidden :
    Admitted hidden ∧ DisjointIntervals hidden ∧
      ∀ sort, SortsByStart sort → ∀ s, ¬ FindsCovering hidden (populateBy sort s hidden) := by
  have hdisjoint : DisjointIntervals hidden := by
    refine List.pairwise_pair.mpr fun _ date hboth => ?_
    exact absurd (hboth.2.1.trans_lt hboth.2.2) (lt_irrefl _)
  refine ⟨by decide, hdisjoint, fun sort hsort s => ?_⟩
  exact not_findsCovering_of_inside hsort s hdisjoint (i := ⟨42, ['B'], ⟨2025, 1, 15, by decide⟩,
    ⟨2025, 1, 15, by decide⟩⟩) (List.mem_cons_of_mem _ List.mem_cons_self) List.mem_cons_self rfl (by decide)
    (by decide)

end DbnPipe.Storage
