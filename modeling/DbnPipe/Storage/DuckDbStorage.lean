import DbnPipe.Storage.TradingDate
import Mathlib.Data.List.Forall2

/-!
# Symbol mappings in DuckDB

The table `symbol_mappings`, and the statements that `DuckDbStorage` runs on it.

* `Row`, `DuckDbStorage` — the table, its primary key (instrument, start date), and the access counter;
* `escapeString`, `literal` — **a symbol in the text of a statement**, and what the statement makes of it;
* `storeMapping`, `evictIfNeeded` — the upsert, and the eviction before it;
* `lookupSymbol` — **the range query** with `LIMIT 1`, over any choice `pick` of one row that SQL allows;
* `mem_matching` — the rows it may answer with.
-/

namespace DbnPipe.Storage

/-- A symbol; the empty text is one. -/
abbrev Symbol := List Char

/-- A row of `symbol_mappings`.  The dates are texts. -/
structure Row where
  instrumentId : ℕ
  symbol : Symbol
  startDate : List Char
  endDate : List Char
  lastAccessed : ℕ
deriving DecidableEq

/-- `DuckDbStorage`: `maxMappings` of zero is no limit, and `accessCounter` is the next value of the sequence. -/
structure DuckDbStorage where
  maxMappings : ℕ := 100000
  rows : List Row := []
  accessCounter : ℕ := 1

/-! ### Text in statements -/

/-- The single quote. -/
def quote : Char := Char.ofNat 39

/-- `EscapeString`. -/
def escapeString : List Char → List Char
  | [] => []
  | c :: rest => if c = quote then quote :: quote :: escapeString rest else c :: escapeString rest

/-- What stands before the closing quote of a literal, a doubled quote being one. -/
def literal : List Char → Option (List Char)
  | [] => none
  | [c] => if c = quote then some [] else none
  | c :: d :: rest =>
    if c = quote then if d = quote then (literal rest).map (quote :: ·) else some []
    else (literal (d :: rest)).map (c :: ·)

/-- **An escaped text is read back as it was**, whatever the statement goes on with. -/
theorem literal_escapeString (s : List Char) {d : Char} (hd : d ≠ quote) (rest : List Char) :
    literal (escapeString s ++ quote :: d :: rest) = some s := by
  induction s with
  | nil => rw [escapeString, List.nil_append, literal, if_pos rfl, if_neg hd]
  | cons c s ih =>
      rw [escapeString]
      split
      · rename_i hc
        rw [List.cons_append, List.cons_append, literal, if_pos rfl, if_pos rfl, ih, hc]
        rfl
      · rename_i hc
        obtain ⟨x, xs, hx⟩ : ∃ x xs, escapeString s ++ quote :: d :: rest = x :: xs := by
          cases escapeString s with
          | nil => exact ⟨_, _, rfl⟩
          | cons x xs => exact ⟨_, _, rfl⟩
        rw [List.cons_append, hx, literal, if_neg hc, ← hx, ih]
        rfl

/-- The symbol that `StoreMapping`'s statement inserts: the literal goes on with a comma. -/
def storedSymbol (symbol : Symbol) : Symbol := (literal (escapeString symbol ++ [quote, ','])).getD []

theorem storedSymbol_eq (symbol : Symbol) : storedSymbol symbol = symbol := by
  rw [storedSymbol, literal_escapeString symbol (by decide)]
  rfl

/-! ### The statements -/

namespace DuckDbStorage

/-- The rows of an instrument from a start date on: at most one, by the primary key. -/
def hasKey (instrumentId : UInt32) (start : List Char) (r : Row) : Bool :=
  decide (r.instrumentId = instrumentId.toNat) && decide (r.startDate = start)

/-- `EvictIfNeeded`. -/
def evictIfNeeded (s : DuckDbStorage) : DuckDbStorage :=
  if s.maxMappings = 0 then s
  else if s.rows.length < s.maxMappings then s
  else
    let target := (Float.ofNat s.maxMappings * 0.9).toUInt64.toNat
    let toDelete := s.rows.length - target
    let oldest := (s.rows.mergeSort fun a b => decide (a.lastAccessed ≤ b.lastAccessed)).take toDelete
    { s with rows := s.rows.filter fun r =>
        !oldest.any fun o => decide (o.instrumentId = r.instrumentId) && decide (o.startDate = r.startDate) }

/-- `StoreMapping`.  The sequence is drawn from once for the values, and again for an update. -/
def storeMapping (instrumentId : UInt32) (symbol : Symbol) (start stop : TradingDate) (s : DuckDbStorage) :
    DuckDbStorage :=
  let s := if 0 < s.maxMappings then s.evictIfNeeded else s
  let excluded : Row :=
    { instrumentId := instrumentId.toNat, symbol := storedSymbol symbol, startDate := start.toIsoString,
      endDate := stop.toIsoString, lastAccessed := s.accessCounter }
  if s.rows.any (hasKey instrumentId start.toIsoString) then
    { s with
      rows := s.rows.map fun r =>
        if hasKey instrumentId start.toIsoString r then
          { r with symbol := excluded.symbol, endDate := excluded.endDate, lastAccessed := s.accessCounter + 1 }
        else r
      accessCounter := s.accessCounter + 2 }
  else { s with rows := s.rows ++ [excluded], accessCounter := s.accessCounter + 1 }

/-- The rows that meet the `WHERE` clause of `LookupSymbol`. -/
def matching (instrumentId : UInt32) (date : TradingDate) (s : DuckDbStorage) : List Row :=
  s.rows.filter fun r => decide (r.instrumentId = instrumentId.toNat) &&
    decide (r.startDate ≤ date.toIsoString) && decide (date.toIsoString ≤ r.endDate)

/-- `LookupSymbol`, with the storage after the access is counted. -/
def lookupSymbol (pick : List Row → Option Row) (instrumentId : UInt32) (date : TradingDate) (s : DuckDbStorage) :
    Option Symbol × DuckDbStorage :=
  match pick (s.matching instrumentId date) with
  | none => (none, s)
  | some row =>
    (some row.symbol,
      { s with
        rows := s.rows.map fun r =>
          if hasKey instrumentId row.startDate r then { r with lastAccessed := s.accessCounter } else r
        accessCounter := s.accessCounter + 1 })

end DuckDbStorage

/-- `LIMIT 1` without an order: one of the rows, if there are any. -/
structure LimitOne (pick : List Row → Option Row) : Prop where
  nil : pick [] = none
  mem : ∀ rows ≠ [], ∃ row ∈ rows, pick rows = some row

/-- The first row is a choice SQL allows. -/
theorem limitOne_head : LimitOne List.head? where
  nil := rfl
  mem rows h := by
    cases rows with
    | nil => exact absurd rfl h
    | cons row rows => exact ⟨row, List.mem_cons_self, rfl⟩

/-- A given row is a choice SQL allows, where it is among the rows. -/
theorem limitOne_prefer (row : Row) : LimitOne fun rows => if row ∈ rows then some row else rows.head? where
  nil := rfl
  mem rows h := by
    split
    · rename_i hmem
      exact ⟨row, hmem, rfl⟩
    · exact limitOne_head.mem rows h

theorem mem_matching {instrumentId : UInt32} {date : TradingDate} {s : DuckDbStorage} {r : Row} :
    r ∈ s.matching instrumentId date ↔ r ∈ s.rows ∧ r.instrumentId = instrumentId.toNat ∧
      r.startDate ≤ date.toIsoString ∧ date.toIsoString ≤ r.endDate := by
  rw [DuckDbStorage.matching, List.mem_filter, Bool.and_eq_true, Bool.and_eq_true, decide_eq_true_iff,
    decide_eq_true_iff, decide_eq_true_iff, and_assoc]

theorem lookupSymbol_fst (pick : List Row → Option Row) (instrumentId : UInt32) (date : TradingDate)
    (s : DuckDbStorage) :
    (s.lookupSymbol pick instrumentId date).1 = (pick (s.matching instrumentId date)).map Row.symbol := by
  rw [DuckDbStorage.lookupSymbol]
  cases pick (s.matching instrumentId date) <;> rfl

/-- Below its limit the storage evicts nothing. -/
theorem evictIfNeeded_below {s : DuckDbStorage} (h : s.rows.length < s.maxMappings) : s.evictIfNeeded = s := by
  rw [DuckDbStorage.evictIfNeeded, if_pos h, ite_self]

/-- **A mapping with a new key** is stored as a row more. -/
theorem storeMapping_new {instrumentId : UInt32} {symbol : Symbol} {start stop : TradingDate} {s : DuckDbStorage}
    (hroom : s.maxMappings = 0 ∨ s.rows.length < s.maxMappings)
    (hnew : ∀ r ∈ s.rows, r.instrumentId = instrumentId.toNat → r.startDate ≠ start.toIsoString) :
    s.storeMapping instrumentId symbol start stop =
      { s with
        rows := s.rows ++ [⟨instrumentId.toNat, symbol, start.toIsoString, stop.toIsoString, s.accessCounter⟩]
        accessCounter := s.accessCounter + 1 } := by
  have hevict : (if 0 < s.maxMappings then s.evictIfNeeded else s) = s := by
    split
    · exact evictIfNeeded_below (hroom.resolve_left (by omega))
    · rfl
  have hkey : ¬ s.rows.any (DuckDbStorage.hasKey instrumentId start.toIsoString) = true := by
    rw [List.any_eq_true]
    rintro ⟨r, hr, hk⟩
    rw [DuckDbStorage.hasKey, Bool.and_eq_true, decide_eq_true_iff, decide_eq_true_iff] at hk
    exact hnew r hr hk.1 hk.2
  rw [DuckDbStorage.storeMapping]
  simp only [hevict, if_neg hkey, storedSymbol_eq]

end DbnPipe.Storage
