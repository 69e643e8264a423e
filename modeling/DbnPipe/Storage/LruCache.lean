import DbnPipe.Library.Runs
import DbnPipe.Storage.DuckDbStorage
import Mathlib.Data.List.Nodup
import Mathlib.Logic.Function.Basic

/-!
# The bounded cache of mappings

`EvictIfNeeded` keeps the number of mappings under its limit, **the least recently used first**.

* `evictTo`, `storeMappingTo` — eviction down to a given number of rows: `EvictIfNeeded` is the one for the
  floating-point product of the limit and 0.9, and what follows takes that product to be exact;
* `Cache` — the storage, next to the time of the last use of each key: its store, or a lookup that returned it;
* `Inv` — keys are unique, and **the access counter orders the rows as their last uses do**;
* `evictTo_full` — what an eviction leaves;
* `Inv.store`, `Inv.lookup` — what every call preserves;
* `bounded_lru` — **every run of stores and lookups**.
-/

namespace DbnPipe.Storage

/-- The primary key. -/
abbrev Key := ℕ × List Char

/-- The key of a row. -/
def Row.key (r : Row) : Key := (r.instrumentId, r.startDate)

namespace DuckDbStorage

/-- The rows that the `DELETE` of `EvictIfNeeded` selects. -/
def oldest (n : ℕ) (s : DuckDbStorage) : List Row :=
  (s.rows.mergeSort fun a b => decide (a.lastAccessed ≤ b.lastAccessed)).take n

/-- `EvictIfNeeded`, down to `target` rows. -/
def evictTo (target : ℕ) (s : DuckDbStorage) : DuckDbStorage :=
  if s.maxMappings = 0 then s
  else if s.rows.length < s.maxMappings then s
  else
    { s with rows := s.rows.filter fun r =>
        !(s.oldest (s.rows.length - target)).any fun o =>
          decide (o.instrumentId = r.instrumentId) && decide (o.startDate = r.startDate) }

theorem evictIfNeeded_eq (s : DuckDbStorage) :
    s.evictIfNeeded = s.evictTo (Float.ofNat s.maxMappings * 0.9).toUInt64.toNat := rfl

/-- `StoreMapping` behind the eviction. -/
def upsert (instrumentId : UInt32) (symbol : Symbol) (start stop : TradingDate) (s : DuckDbStorage) : DuckDbStorage :=
  let excluded : Row :=
    { instrumentId := instrumentId.toNat, symbol := storedSymbol symbol, startDate := start.toIsoString,
      endDate := stop.toIsoString, lastAccessed := s.accessCounter }
  if s.rows.any (hasKey instrumentId start.toIsoString) then
    { s with
      rows := s.rows.map fun r =>
        if hasKey instrumentId start.toIsoString r then
          { r with symbol := excluded.symbol, endDate := excluded.endDate, lastAccessed := s.accessCounter + 1 }
        else r
      accessCounter := s.accessCounter + 2 }
  else { s with rows := s.rows ++ [excluded], accessCounter := s.accessCounter + 1 }

/-- `StoreMapping`, with the rows that an eviction leaves. -/
def storeMappingTo (target : ℕ) (instrumentId : UInt32) (symbol : Symbol) (start stop : TradingDate)
    (s : DuckDbStorage) : DuckDbStorage :=
  (if 0 < s.maxMappings then s.evictTo target else s).upsert instrumentId symbol start stop

theorem storeMapping_eq (instrumentId : UInt32) (symbol : Symbol) (start stop : TradingDate) (s : DuckDbStorage) :
    s.storeMapping instrumentId symbol start stop =
      s.storeMappingTo (Float.ofNat s.maxMappings * 0.9).toUInt64.toNat instrumentId symbol start stop := rfl

/-- `static_cast<size_t>(max_mappings_ * 0.9)`, the product taken exactly. -/
def target (s : DuckDbStorage) : ℕ := 9 * s.maxMappings / 10

end DuckDbStorage

/-! ### What an eviction leaves -/

namespace DuckDbStorage

/-- The rows after those that the `DELETE` selects. -/
def newest (n : ℕ) (s : DuckDbStorage) : List Row :=
  (s.rows.mergeSort fun a b => decide (a.lastAccessed ≤ b.lastAccessed)).drop n

theorem oldest_append_newest (n : ℕ) (s : DuckDbStorage) : (s.oldest n ++ s.newest n).Perm s.rows := by
  rw [oldest, newest, List.take_append_drop]
  exact List.mergeSort_perm _ _

theorem oldest_le_newest (n : ℕ) (s : DuckDbStorage) {o r : Row} (ho : o ∈ s.oldest n) (hr : r ∈ s.newest n) :
    o.lastAccessed ≤ r.lastAccessed := by
  have hsorted := @List.pairwise_mergeSort Row (fun a b => decide (a.lastAccessed ≤ b.lastAccessed))
    (fun a b c hab hbc => decide_eq_true (Nat.le_trans (of_decide_eq_true hab) (of_decide_eq_true hbc)))
    (fun a b => by
      rw [Bool.or_eq_true, decide_eq_true_iff, decide_eq_true_iff]
      exact Nat.le_total _ _)
    s.rows
  rw [← List.take_append_drop n (s.rows.mergeSort _), List.pairwise_append] at hsorted
  exact of_decide_eq_true (hsorted.2.2 o ho r hr)

/-- **By the keys**, the `DELETE` removes the rows it selects, and no others. -/
theorem filter_oldest {s : DuckDbStorage} (hkeys : (s.rows.map Row.key).Nodup) (n : ℕ) :
    (s.rows.filter fun r => !(s.oldest n).any fun o =>
      decide (o.instrumentId = r.instrumentId) && decide (o.startDate = r.startDate)).Perm (s.newest n) := by
  have hperm := oldest_append_newest n s
  have hdisjoint : ∀ o ∈ s.oldest n, ∀ r ∈ s.newest n, o.key ≠ r.key := by
    have hnodup := (hperm.map Row.key).nodup_iff.mpr hkeys
    rw [List.map_append, List.nodup_append] at hnodup
    intro o ho r hr
    exact hnodup.2.2 _ (List.mem_map_of_mem ho) _ (List.mem_map_of_mem hr)
  refine (hperm.symm.filter _).trans ?_
  rw [List.filter_append, List.filter_eq_nil_iff.mpr, List.filter_eq_self.mpr, List.nil_append]
  · intro r hr
    rw [Bool.not_eq_true', Bool.eq_false_iff]
    intro hany
    obtain ⟨o, ho, hkey⟩ := List.any_eq_true.mp hany
    rw [Bool.and_eq_true, decide_eq_true_iff, decide_eq_true_iff] at hkey
    exact hdisjoint o ho r hr (Prod.ext hkey.1 hkey.2)
  · intro o ho
    rw [Bool.not_eq_true, Bool.not_eq_false', List.any_eq_true]
    exact ⟨o, ho, by rw [decide_eq_true rfl, decide_eq_true rfl, Bool.and_self]⟩

theorem evictTo_sublist (target : ℕ) (s : DuckDbStorage) : (s.evictTo target).rows.Sublist s.rows := by
  rw [evictTo]
  split
  · exact List.Sublist.refl _
  split
  · exact List.Sublist.refl _
  · exact List.filter_sublist

@[simp] theorem evictTo_accessCounter (target : ℕ) (s : DuckDbStorage) :
    (s.evictTo target).accessCounter = s.accessCounter := by
  rw [evictTo]
  split_ifs <;> rfl

@[simp] theorem evictTo_maxMappings (target : ℕ) (s : DuckDbStorage) :
    (s.evictTo target).maxMappings = s.maxMappings := by
  rw [evictTo]
  split_ifs <;> rfl

theorem evictTo_eq (target : ℕ) (s : DuckDbStorage) : s.evictTo target = { s with rows := (s.evictTo target).rows } := by
  rw [evictTo]
  split_ifs <;> rfl

theorem evictTo_below {s : DuckDbStorage} (h : s.rows.length < s.maxMappings) (target : ℕ) : s.evictTo target = s := by
  rw [evictTo, if_pos h, ite_self]

/-- **A full storage** keeps as many rows as the target says, and those accessed last. -/
theorem evictTo_full {s : DuckDbStorage} (hkeys : (s.rows.map Row.key).Nodup) (hm : 0 < s.maxMappings)
    (hfull : s.maxMappings ≤ s.rows.length) {target : ℕ} (htarget : target ≤ s.rows.length) :
    (s.evictTo target).rows.length = target ∧
      ∀ o ∈ s.rows, o ∉ (s.evictTo target).rows → ∀ r ∈ (s.evictTo target).rows, o.lastAccessed ≤ r.lastAccessed := by
  have hperm : (s.evictTo target).rows.Perm (s.newest (s.rows.length - target)) := by
    rw [evictTo, if_neg (by omega), if_neg (by omega)]
    exact filter_oldest hkeys _
  constructor
  · rw [hperm.length_eq, newest, List.length_drop, List.length_mergeSort]
    omega
  · intro o ho hgone r hr
    refine oldest_le_newest (s.rows.length - target) s ?_ (hperm.mem_iff.mp hr)
    have := (oldest_append_newest (s.rows.length - target) s).mem_iff.mpr ho
    exact (List.mem_append.mp this).resolve_right fun h => hgone (hperm.mem_iff.mpr h)

end DuckDbStorage

/-! ### Uses -/

/-- The storage, the number of calls so far, and when each key was last used. -/
structure Cache where
  storage : DuckDbStorage
  time : ℕ := 0
  used : Key → ℕ := fun _ => 0

/-- A call. -/
inductive CacheOp where
  | store (instrumentId : UInt32) (symbol : Symbol) (start stop : TradingDate)
  | lookup (instrumentId : UInt32) (date : TradingDate)

namespace Cache

variable (pick : List Row → Option Row)

/-- A key is used now. -/
def use (key : Key) (c : Cache) : Cache := { c with used := Function.update c.used key c.time }

/-- A call: a store uses its key, a lookup that of the row it returns. -/
def step (c : Cache) : CacheOp → Cache
  | .store instrumentId symbol start stop =>
    let c := c.use (instrumentId.toNat, start.toIsoString)
    { c with
      storage := c.storage.storeMappingTo c.storage.target instrumentId symbol start stop
      time := c.time + 1 }
  | .lookup instrumentId date =>
    let row := pick (c.storage.matching instrumentId date)
    let storage := (c.storage.lookupSymbol pick instrumentId date).2
    let c := (row.map fun r => c.use r.key).getD c
    { c with storage := storage, time := c.time + 1 }

/-! ### The invariant -/

/-- Keys are unique, and **the access counter orders the rows as their last uses do**. -/
structure Inv (c : Cache) : Prop where
  keys : (c.storage.rows.map Row.key).Nodup
  accessed : ∀ r ∈ c.storage.rows, r.lastAccessed < c.storage.accessCounter
  used : ∀ r ∈ c.storage.rows, c.used r.key < c.time
  order : ∀ r ∈ c.storage.rows, ∀ r' ∈ c.storage.rows, r.key ≠ r'.key →
    r.lastAccessed ≠ r'.lastAccessed ∧ (r.lastAccessed < r'.lastAccessed → c.used r.key < c.used r'.key)
  bound : c.storage.rows.length ≤ c.storage.maxMappings

theorem inv_init (m : ℕ) : Inv { storage := { maxMappings := m } } where
  keys := List.nodup_nil
  accessed _ h := absurd h List.not_mem_nil
  used _ h := absurd h List.not_mem_nil
  order _ h := absurd h List.not_mem_nil
  bound := Nat.zero_le m

/-- Fewer rows. -/
theorem Inv.evict {c : Cache} (hc : Inv c) (target : ℕ) :
    Inv { c with storage := c.storage.evictTo target } := by
  have hsub := c.storage.evictTo_sublist target
  constructor
  · exact hc.keys.sublist (hsub.map Row.key)
  · intro r hr
    rw [DuckDbStorage.evictTo_accessCounter]
    exact hc.accessed r (hsub.mem hr)
  · intro r hr
    exact hc.used r (hsub.mem hr)
  · intro r hr r' hr'
    exact hc.order r (hsub.mem hr) r' (hsub.mem hr')
  · rw [DuckDbStorage.evictTo_maxMappings]
    exact hsub.length_le.trans hc.bound

/-- No use. -/
theorem Inv.tick {c : Cache} (hc : Inv c) : Inv { c with time := c.time + 1 } where
  keys := hc.keys
  accessed := hc.accessed
  used r hr := Nat.lt_succ_of_lt (hc.used r hr)
  order := hc.order
  bound := hc.bound

/-- The row of a key is used: **its counter becomes the highest**. -/
theorem Inv.touch {c : Cache} (hc : Inv c) {key : Key} {f : Row → Row} {counter : ℕ}
    (hkey : ∀ r, (f r).key = r.key) (hother : ∀ r, r.key ≠ key → f r = r)
    (hnew : ∀ r, r.key = key → c.storage.accessCounter ≤ (f r).lastAccessed ∧ (f r).lastAccessed < counter)
    (hcounter : c.storage.accessCounter ≤ counter) :
    Inv { c.use key with
      storage := { c.storage with rows := c.storage.rows.map f, accessCounter := counter }
      time := c.time + 1 } := by
  constructor
  · have hkeys : (c.storage.rows.map f).map Row.key = c.storage.rows.map Row.key := by
      rw [List.map_map]
      exact List.map_congr_left fun r _ => hkey r
    show ((c.storage.rows.map f).map Row.key).Nodup
    rw [hkeys]
    exact hc.keys
  · intro _ hmem
    obtain ⟨r, hr, rfl⟩ := List.mem_map.mp hmem
    by_cases hr' : r.key = key
    · exact (hnew r hr').2
    · rw [hother r hr']
      exact Nat.lt_of_lt_of_le (hc.accessed r hr) hcounter
  · intro _ hmem
    obtain ⟨r, hr, rfl⟩ := List.mem_map.mp hmem
    show Function.update c.used key c.time (f r).key < c.time + 1
    rw [hkey r, Function.update_apply]
    have := hc.used r hr
    split <;> omega
  · intro _ hmem _ hmem' hne
    obtain ⟨r, hr, rfl⟩ := List.mem_map.mp hmem
    obtain ⟨r', hr', rfl⟩ := List.mem_map.mp hmem'
    rw [hkey r, hkey r'] at hne
    show _ ∧ (_ → Function.update c.used key c.time (f r).key < Function.update c.used key c.time (f r').key)
    rw [hkey r, hkey r', Function.update_apply, Function.update_apply]
    by_cases h : r.key = key <;> by_cases h' : r'.key = key
    · exact absurd (h.trans h'.symm) hne
    · have h1 := hnew r h
      have h2 := hc.accessed r' hr'
      rw [hother r' h']
      constructor <;> omega
    · have h1 := hnew r' h'
      have h2 := hc.accessed r hr
      have h3 := hc.used r hr
      rw [hother r h, if_neg h, if_pos h']
      constructor <;> omega
    · rw [hother r h, hother r' h', if_neg h, if_neg h']
      exact hc.order r hr r' hr' hne
  · show (c.storage.rows.map f).length ≤ _
    rw [List.length_map]
    exact hc.bound

/-- A row with a new key is used. -/
theorem Inv.append {c : Cache} (hc : Inv c) (hroom : c.storage.rows.length < c.storage.maxMappings) {row : Row}
    (hrow : row.key ∉ c.storage.rows.map Row.key) (hlast : row.lastAccessed = c.storage.accessCounter) :
    Inv { c.use row.key with
      storage := { c.storage with rows := c.storage.rows ++ [row], accessCounter := c.storage.accessCounter + 1 }
      time := c.time + 1 } := by
  have hne : ∀ r ∈ c.storage.rows, r.key ≠ row.key := fun r hr h => hrow (h ▸ List.mem_map_of_mem hr)
  have hold : ∀ r ∈ c.storage.rows, Function.update c.used row.key c.time r.key = c.used r.key :=
    fun r hr => Function.update_of_ne (hne r hr) _ _
  have hnow : Function.update c.used row.key c.time row.key = c.time := Function.update_self _ _ _
  constructor
  · show ((c.storage.rows ++ [row]).map Row.key).Nodup
    rw [List.map_append, List.nodup_append]
    refine ⟨hc.keys, List.nodup_singleton _, ?_⟩
    rintro a ha b hb rfl
    rw [List.map_singleton, List.mem_singleton] at hb
    exact hrow (hb ▸ ha)
  · intro r hr
    show r.lastAccessed < c.storage.accessCounter + 1
    rcases List.mem_append.mp hr with hr | hr
    · exact Nat.lt_succ_of_lt (hc.accessed r hr)
    · rw [List.mem_singleton.mp hr, hlast]
      exact Nat.lt_succ_self _
  · intro r hr
    show Function.update c.used row.key c.time r.key < c.time + 1
    rcases List.mem_append.mp hr with hr | hr
    · rw [hold r hr]
      exact Nat.lt_succ_of_lt (hc.used r hr)
    · rw [List.mem_singleton.mp hr, hnow]
      exact Nat.lt_succ_self _
  · intro r hr r' hr' hkeys
    show _ ∧ (_ → Function.update c.used row.key c.time r.key < Function.update c.used row.key c.time r'.key)
    rcases List.mem_append.mp hr with hr | hr <;> rcases List.mem_append.mp hr' with hr' | hr'
    · rw [hold r hr, hold r' hr']
      exact hc.order r hr r' hr' hkeys
    · rw [hold r hr, List.mem_singleton.mp hr', hnow, hlast]
      have h1 := hc.accessed r hr
      have h2 := hc.used r hr
      constructor <;> omega
    · rw [hold r' hr', List.mem_singleton.mp hr, hnow, hlast]
      have h1 := hc.accessed r' hr'
      constructor <;> omega
    · rw [List.mem_singleton.mp hr, List.mem_singleton.mp hr'] at hkeys
      exact absurd rfl hkeys
  · show (c.storage.rows ++ [row]).length ≤ c.storage.maxMappings
    rw [List.length_append, List.length_singleton]
    exact hroom

theorem hasKey_iff {instrumentId : UInt32} {start : List Char} {r : Row} :
    DuckDbStorage.hasKey instrumentId start r = true ↔ r.key = (instrumentId.toNat, start) := by
  rw [DuckDbStorage.hasKey, Bool.and_eq_true, decide_eq_true_iff, decide_eq_true_iff, Row.key, Prod.mk.injEq]

theorem Inv.upsert {c : Cache} (hc : Inv c) (hroom : c.storage.rows.length < c.storage.maxMappings)
    (instrumentId : UInt32) (symbol : Symbol) (start stop : TradingDate) :
    Inv { c.use (instrumentId.toNat, start.toIsoString) with
      storage := c.storage.upsert instrumentId symbol start stop
      time := c.time + 1 } := by
  rw [DuckDbStorage.upsert]
  split
  · refine hc.touch (fun r => ?_) (fun r hr => ?_) (fun r hr => ?_) (Nat.le_add_right _ _)
    · split <;> rfl
    · exact if_neg fun h => hr (hasKey_iff.mp h)
    · rw [if_pos (hasKey_iff.mpr hr)]
      exact ⟨Nat.le_succ _, Nat.lt_succ_self _⟩
  · rename_i hnew
    refine hc.append hroom ?_ rfl
    intro hmem
    obtain ⟨r, hr, hkey⟩ := List.mem_map.mp hmem
    exact hnew (List.any_eq_true.mpr ⟨r, hr, hasKey_iff.mpr hkey⟩)

/-- After an eviction **there is room**. -/
theorem Inv.room {c : Cache} (hc : Inv c) (hm : 1 ≤ c.storage.maxMappings) :
    (c.storage.evictTo c.storage.target).rows.length < c.storage.maxMappings := by
  by_cases hfull : c.storage.rows.length < c.storage.maxMappings
  · rw [DuckDbStorage.evictTo_below hfull]
    exact hfull
  · have hlength := hc.bound
    have htarget : c.storage.target < c.storage.maxMappings := by
      rw [DuckDbStorage.target]
      omega
    rw [(DuckDbStorage.evictTo_full hc.keys hm (by omega) (by omega)).1]
    exact htarget

theorem Inv.store {c : Cache} (hc : Inv c) (hm : 1 ≤ c.storage.maxMappings) (instrumentId : UInt32) (symbol : Symbol)
    (start stop : TradingDate) : Inv (c.step pick (.store instrumentId symbol start stop)) := by
  have hroom := hc.room hm
  have hevicted := hc.evict c.storage.target
  rw [← DuckDbStorage.evictTo_maxMappings c.storage.target] at hroom
  show Inv { c.use (instrumentId.toNat, start.toIsoString) with
    storage := (if 0 < c.storage.maxMappings then c.storage.evictTo c.storage.target else c.storage).upsert
      instrumentId symbol start stop
    time := c.time + 1 }
  rw [if_pos (show 0 < c.storage.maxMappings from hm)]
  exact hevicted.upsert hroom instrumentId symbol start stop

theorem Inv.lookup {pick} (hpick : LimitOne pick) {c : Cache} (hc : Inv c) (instrumentId : UInt32)
    (date : TradingDate) : Inv (c.step pick (.lookup instrumentId date)) := by
  rw [step, DuckDbStorage.lookupSymbol]
  by_cases hnil : c.storage.matching instrumentId date = []
  · rw [hnil, hpick.nil]
    exact hc.tick
  · obtain ⟨row, hrow, hsome⟩ := hpick.mem _ hnil
    rw [hsome]
    have hid : row.key = (instrumentId.toNat, row.startDate) := Prod.ext (mem_matching.mp hrow).2.1 rfl
    refine hc.touch (fun r => ?_) (fun r hr => ?_) (fun r hr => ?_) (Nat.le_succ _)
    · split <;> rfl
    · exact if_neg fun h => hr (hid ▸ hasKey_iff.mp h)
    · rw [if_pos (hasKey_iff.mpr (hr.trans hid))]
      exact ⟨Nat.le_refl _, Nat.lt_succ_self _⟩

theorem step_maxMappings (c : Cache) (op : CacheOp) :
    (c.step pick op).storage.maxMappings = c.storage.maxMappings := by
  cases op with
  | store instrumentId symbol start stop =>
      rw [step, use, DuckDbStorage.storeMappingTo, DuckDbStorage.upsert]
      split_ifs <;> simp
  | lookup instrumentId date =>
      rw [step, DuckDbStorage.lookupSymbol]
      cases pick (c.storage.matching instrumentId date) <;> rfl

theorem inv_run {pick} (hpick : LimitOne pick) {m : ℕ} (hm : 1 ≤ m) (ops : List CacheOp) :
    Inv (Runs.run (step pick) { storage := { maxMappings := m } } ops) ∧
      (Runs.run (step pick) { storage := { maxMappings := m } } ops).storage.maxMappings = m := by
  have hstep : ∀ (c : Cache) (op : CacheOp), Inv c ∧ c.storage.maxMappings = m →
      Inv (c.step pick op) ∧ (c.step pick op).storage.maxMappings = m := by
    rintro c op ⟨hc, hmax⟩
    refine ⟨?_, (step_maxMappings pick c op).trans hmax⟩
    cases op with
    | store instrumentId symbol start stop => exact hc.store pick (hmax ▸ hm) instrumentId symbol start stop
    | lookup instrumentId date => exact hc.lookup hpick instrumentId date
  exact Runs.run_invariant hstep ⟨inv_init m, rfl⟩ ops

/-- What an eviction leaves **was used after what it removes**. -/
theorem Inv.evicts {c : Cache} (hc : Inv c) {o : Row} (ho : o ∈ c.storage.rows)
    (hgone : o ∉ (c.storage.evictTo c.storage.target).rows) :
    (c.storage.evictTo c.storage.target).rows.length = 9 * c.storage.maxMappings / 10 ∧
      ∀ r ∈ (c.storage.evictTo c.storage.target).rows, c.used o.key < c.used r.key := by
  have hlength := hc.bound
  have hfull : c.storage.maxMappings ≤ c.storage.rows.length := by
    by_contra hroom
    rw [DuckDbStorage.evictTo_below (by omega)] at hgone
    exact hgone ho
  have hm : 0 < c.storage.maxMappings := (List.length_pos_of_mem ho).trans_le hlength
  have htarget : c.storage.target ≤ c.storage.rows.length := by
    rw [DuckDbStorage.target]
    omega
  obtain ⟨hkept, horder⟩ := DuckDbStorage.evictTo_full hc.keys hm hfull htarget
  refine ⟨hkept, fun r hr => ?_⟩
  have hmem := (c.storage.evictTo_sublist c.storage.target).mem hr
  have hne : o.key ≠ r.key := by
    intro heq
    exact hgone (List.inj_on_of_nodup_map hc.keys ho hmem heq ▸ hr)
  obtain ⟨hlast, hused⟩ := hc.order o ho r hmem hne
  exact hused (lt_of_le_of_ne (horder o ho hgone r hr) hlast)

theorem upsert_present (s : DuckDbStorage) (instrumentId : UInt32) (symbol : Symbol) (start stop : TradingDate) :
    ∃ r ∈ (s.upsert instrumentId symbol start stop).rows,
      r.key = (instrumentId.toNat, start.toIsoString) ∧ r.symbol = symbol ∧ r.endDate = stop.toIsoString := by
  rw [DuckDbStorage.upsert]
  split
  · rename_i hany
    obtain ⟨r, hr, hkey⟩ := List.any_eq_true.mp hany
    refine ⟨_, List.mem_map_of_mem hr, ?_⟩
    rw [if_pos hkey]
    exact ⟨hasKey_iff.mp hkey, storedSymbol_eq symbol, rfl⟩
  · exact ⟨_, List.mem_append_right _ List.mem_cons_self, rfl, storedSymbol_eq symbol, rfl⟩

/-- **The cache is bounded, and evicts the least recently used rows**: after any stores and lookups there are at most
`m` rows; a store, whatever it evicts, leaves the mapping it stores; and where it evicts a row, `9 * m / 10` rows
stay, each used after that one. -/
theorem bounded_lru {pick : List Row → Option Row} (hpick : LimitOne pick) {m : ℕ} (hm : 1 ≤ m)
    (ops : List CacheOp) :
    let c := Runs.run (step pick) { storage := { maxMappings := m } } ops
    c.storage.rows.length ≤ m ∧
      ∀ (instrumentId : UInt32) (symbol : Symbol) (start stop : TradingDate),
        (∃ r ∈ (c.step pick (.store instrumentId symbol start stop)).storage.rows,
          r.key = (instrumentId.toNat, start.toIsoString) ∧ r.symbol = symbol ∧ r.endDate = stop.toIsoString) ∧
        let kept := (c.storage.evictTo (9 * m / 10)).rows
        (c.step pick (.store instrumentId symbol start stop)).storage =
          ({ c.storage with rows := kept }).upsert instrumentId symbol start stop ∧
        ∀ o ∈ c.storage.rows, o ∉ kept → kept.length = 9 * m / 10 ∧ ∀ r ∈ kept, c.used o.key < c.used r.key := by
  intro c
  obtain ⟨hc, hmax⟩ := inv_run hpick hm ops
  have htarget : c.storage.target = 9 * m / 10 := by rw [DuckDbStorage.target, hmax]
  refine ⟨hmax ▸ hc.bound, fun instrumentId symbol start stop => ⟨upsert_present _ .., ?_, ?_⟩⟩
  · have hpos : 0 < c.storage.maxMappings := hmax.symm ▸ hm
    show (if 0 < c.storage.maxMappings then c.storage.evictTo c.storage.target else c.storage).upsert
      instrumentId symbol start stop = _
    rw [if_pos hpos, htarget, DuckDbStorage.evictTo_eq]
  · intro o ho hgone
    rw [← htarget] at hgone ⊢
    rw [DuckDbStorage.target]
    exact hc.evicts ho hgone

/-- Two mappings of a full cache of two, the first looked up, and a third. -/
theorem bounded_lru_third :
    let c := Runs.run (step List.head?) { storage := { maxMappings := 2 } }
      [.store 1 ['A'] ⟨2025, 1, 1, by decide⟩ ⟨2025, 1, 31, by decide⟩,
        .store 2 ['B'] ⟨2025, 1, 1, by decide⟩ ⟨2025, 1, 31, by decide⟩, .lookup 1 ⟨2025, 1, 15, by decide⟩]
    c.storage.rows.length ≤ 2 ∧
      ∀ (instrumentId : UInt32) (symbol : Symbol) (start stop : TradingDate),
        (∃ r ∈ (c.step List.head? (.store instrumentId symbol start stop)).storage.rows,
          r.key = (instrumentId.toNat, start.toIsoString) ∧ r.symbol = symbol ∧ r.endDate = stop.toIsoString) ∧
        let kept := (c.storage.evictTo 1).rows
        (c.step List.head? (.store instrumentId symbol start stop)).storage =
          ({ c.storage with rows := kept }).upsert instrumentId symbol start stop ∧
        ∀ o ∈ c.storage.rows, o ∉ kept → kept.length = 1 ∧ ∀ r ∈ kept, c.used o.key < c.used r.key :=
  bounded_lru limitOne_head (by decide) _

end Cache

end DbnPipe.Storage
