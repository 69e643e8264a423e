import DbnPipe.Library.SqlText
import DbnPipe.Storage.DuckDbStorage
import DbnPipe.Storage.ParseRanges

/-!
# Download progress in DuckDB

The table `download_progress`: what `DuckDbStorage::StoreProgress` writes and `LoadProgress` reads, through the texts
of their statements.

* `storeProgressSql`, `loadProgressSql` — **the texts**, with the strings escaped;
* `insertProgress`, `selectProgress` — the statements that they stand for, with parameters;
* `DuckDb`, `Lawful` — the database, of which only **what the two statements do** is assumed, in texts without a NUL;
* `tokens_storeProgressSql`, `tokens_loadProgressSql` — each text is its statement, filled with the very values;
* `loadProgress_storeProgress` — **what was stored is loaded**;
* `progress_roundTrip` — with the scanner, which ends on every text and reads back every list.
-/

namespace DbnPipe.Storage

open SqlText (Token Statement tokens tokensFrom doubled words fill arguments)

/-- `DownloadProgress`. -/
structure DownloadProgress where
  sha256Expected : List Char := []
  totalSize : UInt64 := 0
  completedRanges : List Range := []
deriving DecidableEq, Repr

/-! ### The texts -/

/-- The text of `StoreProgress`'s statement before its values. -/
def insertPrefix : List Char :=
  "INSERT INTO download_progress ".toList ++ "(job_id, filename, sha256_expected, ".toList ++
    "total_size, completed_ranges) VALUES (".toList

/-- The text behind them. -/
def insertSuffix : List Char :=
  ')' :: (" ON CONFLICT (job_id, filename) DO UPDATE SET ".toList ++
    "sha256_expected = EXCLUDED.sha256_expected, ".toList ++ "total_size = EXCLUDED.total_size, ".toList ++
    "completed_ranges = EXCLUDED.completed_ranges".toList)

/-- `'{}'`. -/
def inQuotes (s : List Char) : List Char := quote :: (s ++ [quote])

/-- The statement of `StoreProgress`. -/
def storeProgressSql (jobId filename : List Char) (progress : DownloadProgress) : List Char :=
  insertPrefix ++ inQuotes (escapeString jobId) ++ [',', ' '] ++ inQuotes (escapeString filename) ++ [',', ' '] ++
    inQuotes (escapeString progress.sha256Expected) ++ [',', ' '] ++ decimalText progress.totalSize ++ [',', ' '] ++
    inQuotes (rangesText progress.completedRanges) ++ insertSuffix

/-- The text of `LoadProgress`'s statement before its values. -/
def selectPrefix : List Char :=
  "SELECT sha256_expected, ".toList ++ "total_size, completed_ranges ".toList ++ "FROM download_progress ".toList ++
    "WHERE job_id = ".toList

/-- The text between them. -/
def selectAnd : List Char := " AND filename = ".toList

/-- The statement of `LoadProgress`. -/
def loadProgressSql (jobId filename : List Char) : List Char :=
  selectPrefix ++ inQuotes (escapeString jobId) ++ selectAnd ++ inQuotes (escapeString filename)

/-- The statement that stores: a row is inserted, or updated where there is one with its key. -/
def insertProgress : Statement :=
  (words insertPrefix).map some ++ none :: some (.symbol ',') :: none :: some (.symbol ',') :: none ::
    some (.symbol ',') :: none :: some (.symbol ',') :: none :: (words insertSuffix).map some

/-- The statement that loads: the rest of the row with a key. -/
def selectProgress : Statement :=
  (words selectPrefix).map some ++ none :: ((words selectAnd).map some ++ [none])

/-! ### The database -/

/-- Where a text ends for those who take it for a C string. -/
def nul : Char := Char.ofNat 0

/-- A row of `download_progress`, without its key. -/
structure ProgressRow where
  sha256Expected : List Char
  totalSize : Int64
  completedRanges : List Char
deriving DecidableEq

/-- DuckDB, as the functions use it. -/
structure DuckDb where
  Database : Type
  /-- `Query`: the rows of the answer, or an error. -/
  query : List Char → Database → Option (List ProgressRow) × Database
  /-- The row with a job and a file for its key. -/
  row : Database → List Char × List Char → Option ProgressRow

namespace DuckDb

variable (D : DuckDb)

/-- **What is assumed of the database**: the two statements, with any arguments, do what SQL says, in texts without a
NUL; a number fits the column `BIGINT` below 2^63. -/
structure Lawful : Prop where
  insert : ∀ {text : List Char} {jobId filename sha ranges : List Char} {size : ℕ}, nul ∉ text →
    tokens text = some (fill insertProgress
      [.literal jobId, .literal filename, .literal sha, .number (Nat.toDigits 10 size), .literal ranges]) →
    size < 2 ^ 63 → ∀ db key, D.row (D.query text db).2 key =
      if key = (jobId, filename) then some ⟨sha, Int64.ofNat size, ranges⟩ else D.row db key
  select : ∀ {text : List Char} {jobId filename : List Char}, nul ∉ text →
    tokens text = some (fill selectProgress [.literal jobId, .literal filename]) →
    ∀ db, (D.query text db).1 = some (D.row db (jobId, filename)).toList

/-- `StoreProgress`. -/
def storeProgress (jobId filename : List Char) (progress : DownloadProgress) (db : D.Database) : D.Database :=
  (D.query (storeProgressSql jobId filename progress) db).2

/-- `LoadProgress`. -/
def loadProgress (jobId filename : List Char) (db : D.Database) : Option DownloadProgress :=
  match (D.query (loadProgressSql jobId filename) db).1 with
  | none => none
  | some [] => none
  | some (row :: _) =>
    (parseRanges row.completedRanges.length row.completedRanges).map fun completedRanges =>
      { sha256Expected := row.sha256Expected, totalSize := row.totalSize.toUInt64, completedRanges }

end DuckDb

/-! ### The texts are the statements -/

theorem escapeString_eq (s : List Char) : escapeString s = doubled s := by
  induction s with
  | nil => rfl
  | cons c s ih =>
    rw [escapeString, SqlText.doubled_cons, ih]
    by_cases hc : c = SqlText.quote
    · rw [if_pos hc, if_pos (show c = quote from hc)]
      rfl
    · rw [if_neg hc, if_neg (show ¬c = quote from hc)]
      rfl

/-- The ranges are written with digits, brackets and commas. -/
theorem not_mem_rangesText {c : Char} (hdigit : c.isDigit = false) (hopen : c ≠ '[') (hcomma : c ≠ ',')
    (hclose : c ≠ ']') (ranges : List Range) : c ∉ rangesText ranges := by
  have hrange : ∀ r : Range, c ∉ rangeText r := by
    intro r
    simp only [rangeText, List.mem_append, List.mem_singleton, not_or]
    exact ⟨⟨⟨⟨hopen, not_mem_decimalText hdigit r.1⟩, hcomma⟩, not_mem_decimalText hdigit r.2⟩, hclose⟩
  have hbehind : ∀ l : List Range, c ∉ behind l := by
    intro l
    rw [behind, List.mem_append, not_or, List.mem_flatMap, List.mem_singleton]
    refine ⟨?_, hclose⟩
    rintro ⟨r, -, hr⟩
    rcases List.mem_cons.mp hr with hr | hr
    · exact hcomma hr
    · exact hrange r hr
  cases ranges with
  | nil =>
    show c ∉ ['[', ']']
    rw [List.mem_pair, not_or]
    exact ⟨hopen, hclose⟩
  | cons r l =>
    rw [rangesText_cons, List.mem_cons, List.mem_append, not_or, not_or]
    exact ⟨hopen, hrange r, hbehind l⟩

/-- An escaped string holds nothing new but quotes. -/
theorem not_mem_inQuotes {c : Char} (hc : c ≠ quote) {s : List Char} (h : c ∉ s) : c ∉ inQuotes (escapeString s) := by
  have hescaped : c ∉ escapeString s := by
    induction s with
    | nil => exact List.not_mem_nil
    | cons a s ih =>
      obtain ⟨ha, hs⟩ := not_or.mp (mt List.mem_cons.mpr h)
      rw [escapeString]
      split
      · exact List.not_mem_cons_of_ne_of_not_mem hc (List.not_mem_cons_of_ne_of_not_mem hc (ih hs))
      · exact List.not_mem_cons_of_ne_of_not_mem ha (ih hs)
  exact List.not_mem_cons_of_ne_of_not_mem hc (List.not_mem_append hescaped (mt List.mem_singleton.mp hc))

/-- A comma between two values. -/
theorem tokensFrom_comma (rest : List Char) :
    tokensFrom .between (',' :: ' ' :: rest) = (tokensFrom .between rest).map (.symbol ',' :: ·) := by
  have hcomma : SqlText.run .between [',', ' '] = ([.symbol ','], .between) := by decide
  exact SqlText.tokensFrom_append hcomma rest

/-- **A string in a statement**, escaped and in quotes. -/
theorem tokensFrom_inQuotes (s : List Char) {c : Char} (hc : c ≠ quote) (rest : List Char) :
    tokensFrom .between (inQuotes (escapeString s) ++ c :: rest) =
      (tokensFrom .between (c :: rest)).map (.literal s :: ·) := by
  rw [inQuotes, escapeString_eq, List.cons_append, List.append_assoc]
  exact SqlText.tokensFrom_literal s hc rest

theorem escapeString_rangesText (ranges : List Range) : escapeString (rangesText ranges) = rangesText ranges := by
  rw [escapeString_eq, SqlText.doubled_of_not_mem (not_mem_rangesText (by decide) (by decide) (by decide) (by decide) ranges)]

/-- **The text of `StoreProgress`** is the statement that stores, filled with the values. -/
theorem tokens_storeProgressSql (jobId filename : List Char) (progress : DownloadProgress) :
    tokens (storeProgressSql jobId filename progress) = some (fill insertProgress
      [.literal jobId, .literal filename, .literal progress.sha256Expected,
        .number (Nat.toDigits 10 progress.totalSize.toNat), .literal (rangesText progress.completedRanges)]) := by
  have hstart : SqlText.run .between insertPrefix = (words insertPrefix, .between) :=
    SqlText.run_words (by decide +kernel)
  have hend : tokensFrom .between insertSuffix = some (words insertSuffix) := SqlText.tokens_words (by decide +kernel)
  have hcomma : (',' : Char) ≠ quote := by decide
  have hclose : (')' : Char) ≠ quote := by decide
  have hdigits : ∀ c ∈ decimalText progress.totalSize, c.isDigit = true := fun c hc => isDigit_decimalText hc
  obtain ⟨suffix, hsuffix⟩ : ∃ suffix, insertSuffix = ')' :: suffix := ⟨_, rfl⟩
  rw [storeProgressSql, ← escapeString_rangesText]
  simp only [List.append_assoc, List.cons_append, List.nil_append]
  rw [tokens, SqlText.tokensFrom_append hstart, tokensFrom_inQuotes jobId hcomma, tokensFrom_comma,
    tokensFrom_inQuotes filename hcomma, tokensFrom_comma, tokensFrom_inQuotes progress.sha256Expected hcomma,
    tokensFrom_comma, SqlText.tokensFrom_number (decimalText_ne_nil _) hdigits (by decide), tokensFrom_comma, hsuffix,
    tokensFrom_inQuotes _ hclose, ← hsuffix, hend, insertProgress, SqlText.fill_some]
  simp only [Option.map_some, fill, SqlText.fill_map_some]
  rw [escapeString_rangesText, decimalText]

/-- A string at the end of a statement. -/
theorem tokens_inQuotes (s : List Char) : tokens (inQuotes (escapeString s)) = some [.literal s] := by
  rw [inQuotes, escapeString_eq]
  exact SqlText.tokens_doubled s

/-- **The text of `LoadProgress`** is the statement that loads, filled with the key. -/
theorem tokens_loadProgressSql (jobId filename : List Char) :
    tokens (loadProgressSql jobId filename) =
      some (fill selectProgress [.literal jobId, .literal filename]) := by
  have hstart : SqlText.run .between selectPrefix = (words selectPrefix, .between) :=
    SqlText.run_words (by decide +kernel)
  have hmiddle : SqlText.run .between selectAnd = (words selectAnd, .between) := SqlText.run_words (by decide +kernel)
  obtain ⟨c, rest, hrest, hc⟩ : ∃ c rest, selectAnd = c :: rest ∧ c ≠ quote :=
    ⟨' ', selectAnd.tail, by decide +kernel, by decide⟩
  rw [loadProgressSql, List.append_assoc, List.append_assoc, tokens, SqlText.tokensFrom_append hstart, hrest,
    List.cons_append, tokensFrom_inQuotes jobId hc, ← List.cons_append, ← hrest, SqlText.tokensFrom_append hmiddle]
  rw [show tokensFrom .between (inQuotes (escapeString filename)) = _ from tokens_inQuotes filename, selectProgress,
    SqlText.fill_some]
  simp only [Option.map_some, fill, SqlText.fill_some]

/-! ### No text has a NUL -/

theorem nul_not_mem_storeProgressSql {jobId filename : List Char} {progress : DownloadProgress} (hjob : nul ∉ jobId)
    (hfile : nul ∉ filename) (hsha : nul ∉ progress.sha256Expected) :
    nul ∉ storeProgressSql jobId filename progress := by
  have hquote : nul ≠ quote := by decide
  have hcomma : nul ∉ [',', ' '] := by decide
  have hprefix : nul ∉ insertPrefix := by decide +kernel
  have hsuffix : nul ∉ insertSuffix := by decide +kernel
  have hranges : nul ∉ inQuotes (rangesText progress.completedRanges) := by
    rw [← escapeString_rangesText]
    exact not_mem_inQuotes hquote (not_mem_rangesText (by decide) (by decide) (by decide) (by decide) _)
  have hsize : nul ∉ decimalText progress.totalSize := not_mem_decimalText (by decide) _
  have hkey := List.not_mem_append (List.not_mem_append (List.not_mem_append hprefix (not_mem_inQuotes hquote hjob))
    hcomma) (not_mem_inQuotes hquote hfile)
  have hvalues := List.not_mem_append (List.not_mem_append (List.not_mem_append hkey hcomma)
    (not_mem_inQuotes hquote hsha)) hcomma
  exact List.not_mem_append (List.not_mem_append (List.not_mem_append (List.not_mem_append hvalues hsize) hcomma)
    hranges) hsuffix

theorem nul_not_mem_loadProgressSql {jobId filename : List Char} (hjob : nul ∉ jobId) (hfile : nul ∉ filename) :
    nul ∉ loadProgressSql jobId filename := by
  have hquote : nul ≠ quote := by decide
  have hprefix : nul ∉ selectPrefix := by decide +kernel
  have hand : nul ∉ selectAnd := by decide +kernel
  exact List.not_mem_append (List.not_mem_append (List.not_mem_append hprefix (not_mem_inQuotes hquote hjob)) hand)
    (not_mem_inQuotes hquote hfile)

/-! ### What was stored is loaded -/

/-- The column `BIGINT` and back. -/
theorem toUInt64_ofNat (n : UInt64) : (Int64.ofNat n.toNat).toUInt64 = n := by
  rw [Int64.toUInt64_ofNat', UInt64.ofNat_toNat]

variable {D : DuckDb}

/-- **What was stored is loaded**, whatever the database held before. -/
theorem loadProgress_storeProgress (h : D.Lawful) {jobId filename : List Char} {progress : DownloadProgress}
    (hjob : nul ∉ jobId) (hfile : nul ∉ filename) (hsha : nul ∉ progress.sha256Expected)
    (hsize : progress.totalSize.toNat < 2 ^ 63) (db : D.Database) :
    D.loadProgress jobId filename (D.storeProgress jobId filename progress db) = some progress := by
  have hrow : D.row (D.storeProgress jobId filename progress db) (jobId, filename) =
      some ⟨progress.sha256Expected, Int64.ofNat progress.totalSize.toNat, rangesText progress.completedRanges⟩ := by
    rw [DuckDb.storeProgress, h.insert (nul_not_mem_storeProgressSql hjob hfile hsha)
      (tokens_storeProgressSql jobId filename progress) hsize, if_pos rfl]
  rw [DuckDb.loadProgress, h.select (nul_not_mem_loadProgressSql hjob hfile) (tokens_loadProgressSql jobId filename),
    hrow]
  simp only [Option.toList_some, parseRanges_rangesText (Nat.le_refl _), Option.map_some, toUInt64_ofNat]

/-- **The progress of another file stays.** -/
theorem loadProgress_other (h : D.Lawful) {jobId filename jobId' filename' : List Char} {progress : DownloadProgress}
    (hjob : nul ∉ jobId) (hfile : nul ∉ filename) (hsha : nul ∉ progress.sha256Expected) (hjob' : nul ∉ jobId')
    (hfile' : nul ∉ filename') (hsize : progress.totalSize.toNat < 2 ^ 63) (hne : (jobId', filename') ≠ (jobId, filename)) (db : D.Database) :
    D.loadProgress jobId' filename' (D.storeProgress jobId filename progress db) =
      D.loadProgress jobId' filename' db := by
  have hrow : D.row (D.storeProgress jobId filename progress db) (jobId', filename') =
      D.row db (jobId', filename') := by
    rw [DuckDb.storeProgress, h.insert (nul_not_mem_storeProgressSql hjob hfile hsha)
      (tokens_storeProgressSql jobId filename progress) hsize, if_neg hne]
  have hselect := fun db => h.select (nul_not_mem_loadProgressSql hjob' hfile') (tokens_loadProgressSql jobId' filename') db
  rw [DuckDb.loadProgress, DuckDb.loadProgress, hselect, hselect, hrow]

/-! ### A database -/

/-- What the two statements do, with their arguments, to a table by its key. -/
def perform (stored loaded : Option (List Token)) (db : List Char × List Char → Option ProgressRow) :
    Option (List ProgressRow) × (List Char × List Char → Option ProgressRow) :=
  match stored, loaded with
  | some [.literal jobId, .literal filename, .literal sha, .number digits, .literal ranges], _ =>
    let size := Nat.ofDigitChars 10 digits 0
    if size < 2 ^ 63 then
      (some [], fun key => if key = (jobId, filename) then some ⟨sha, Int64.ofNat size, ranges⟩ else db key)
    else (none, db)
  | _, some [.literal jobId, .literal filename] => (some (db (jobId, filename)).toList, db)
  | _, _ => (none, db)

/-- A database that does the two statements, and nothing else. -/
def table : DuckDb where
  Database := List Char × List Char → Option ProgressRow
  query text := perform ((tokens text).bind (arguments insertProgress)) ((tokens text).bind (arguments selectProgress))
  row db := db

/-- The statement that loads is not one that stores. -/
theorem arguments_insertProgress (args : List Token) : arguments insertProgress (fill selectProgress args) = none := by
  have hfirst : (words insertPrefix).head? = some (.word ['I', 'N', 'S', 'E', 'R', 'T']) := by decide +kernel
  have hother : (words selectPrefix).head? = some (.word ['S', 'E', 'L', 'E', 'C', 'T']) := by decide +kernel
  obtain ⟨l, hinsert⟩ := List.head?_eq_some_iff.mp hfirst
  obtain ⟨m, hselect⟩ := List.head?_eq_some_iff.mp hother
  rw [insertProgress, selectProgress, hinsert, hselect, List.map_cons, List.cons_append, List.map_cons,
    List.cons_append, fill, arguments, if_neg (by decide)]

theorem count_insertProgress : insertProgress.count none = 5 := by
  simp [insertProgress, SqlText.count_map_some]

theorem count_selectProgress : selectProgress.count none = 2 := by
  simp [selectProgress, SqlText.count_map_some]

theorem perform_stored {jobId filename sha ranges : List Char} {size : ℕ} (h : size < 2 ^ 63)
    (loaded : Option (List Token)) (db : List Char × List Char → Option ProgressRow) :
    perform (some [.literal jobId, .literal filename, .literal sha, .number (Nat.toDigits 10 size), .literal ranges])
      loaded db =
        (some [], fun key => if key = (jobId, filename) then some ⟨sha, Int64.ofNat size, ranges⟩ else db key) := by
  simp only [perform, Nat.ofDigitChars_ten_toDigits, if_pos h]

theorem lawful_table : table.Lawful where
  insert := by
    intro text jobId filename sha ranges size _ htext hsize db key
    have hargs := SqlText.arguments_fill insertProgress [.literal jobId, .literal filename, .literal sha,
      .number (Nat.toDigits 10 size), .literal ranges] (by rw [count_insertProgress]; rfl)
    show (perform _ _ db).2 key = _
    rw [htext, Option.bind_some, hargs]
    exact congrFun (congrArg Prod.snd (perform_stored hsize _ db)) key
  select := by
    intro text jobId filename _ htext db
    have hargs := SqlText.arguments_fill selectProgress [.literal jobId, .literal filename]
      (by rw [count_selectProgress]; rfl)
    show (perform _ _ db).1 = _
    rw [htext, Option.bind_some, Option.bind_some, hargs, arguments_insertProgress]
    rfl

/-- **Download progress goes through its statements unchanged.**  The scanner reads back the text of every list, and
ends on every text; what is stored is loaded; an escaped string in quotes is the literal of that string. -/
theorem progress_roundTrip (h : D.Lawful) :
    (∀ (ranges : List Range) (fuel : ℕ), (rangesText ranges).length ≤ fuel →
      parseRanges fuel (rangesText ranges) = some ranges) ∧
    (∀ (jobId filename : List Char) (progress : DownloadProgress), nul ∉ jobId → nul ∉ filename →
      nul ∉ progress.sha256Expected → progress.totalSize.toNat < 2 ^ 63 → ∀ db,
      D.loadProgress jobId filename (D.storeProgress jobId filename progress db) = some progress) ∧
    (∀ s : List Char, tokens (inQuotes (escapeString s)) = some [.literal s]) ∧
    ∀ (str : List Char) (fuel : ℕ), str.length ≤ fuel → ∃ ranges, parseRanges fuel str = some ranges :=
  ⟨fun _ _ hfuel => parseRanges_rangesText hfuel,
    fun _ _ _ hjob hfile hsha hsize db => loadProgress_storeProgress h hjob hfile hsha hsize db,
    tokens_inQuotes, fun _ _ hfuel => parseRanges_terminates hfuel⟩

/-- A job with a quote in its name, and a range that ends at the largest number. -/
theorem progress_roundTrip_table :
    table.loadProgress ['i', 't', quote, 's'] ['f'] (table.storeProgress ['i', 't', quote, 's'] ['f']
      ⟨['a', '1'], 1000000, [(0, 100), (200, 18446744073709551615)]⟩ fun _ => none) =
        some ⟨['a', '1'], 1000000, [(0, 100), (200, 18446744073709551615)]⟩ :=
  (progress_roundTrip lawful_table).2.1 _ _ _ (by decide) (by decide) (by decide) (by decide) _

end DbnPipe.Storage
