import DbnPipe.Pg.Mapper

/-!
# The SQL of the database writer

The statements that `dbwriter` builds, as texts.

* `quoteIdentifier`, `escapeSqlString` — **a name and a string in a statement**;
* `cString` — **what libpq gets of a text**;
* `copyCommand` — the command of `PostgresCopyWriter::start`;
* `createTableSql`, `columnsSql` — the statements of `SchemaValidator`;
* `dropStagingSql`, `createStagingSql`, `insertSql`, `dropStagedSql` — the statements of `BatchWriter::write_batch`,
  where the names are **not** quoted.
-/

namespace DbnPipe.DbWriter

open DbnPipe.Pg (LogicalType)

/-! ### Names and strings -/

/-- One character of `quote_identifier`. -/
def quoteChar (result : List Char) (c : Char) : List Char :=
  let result := if c = '"' then result ++ ['"'] else result
  result ++ [c]

/-- `quote_identifier`. -/
def quoteIdentifier (ident : List Char) : List Char := ident.foldl quoteChar ['"'] ++ ['"']

/-- The single quote. -/
def apostrophe : Char := Char.ofNat 39

/-- `escape_sql_string`. -/
def escapeSqlString (s : List Char) : List Char :=
  s.foldl (fun result c => if c = apostrophe then result ++ [apostrophe, apostrophe] else result ++ [c]) []

/-- One round of a loop that lists texts, with the index. -/
def appendListed (s : List Char × ℕ) (text : List Char) : List Char × ℕ :=
  let out := if 0 < s.2 then s.1 ++ [',', ' '] else s.1
  (out ++ text, s.2 + 1)

/-- Texts with commas between them. -/
def listed (texts : List (List Char)) : List Char := (texts.foldl appendListed ([], 0)).1

/-- `c_str`, in which every statement is sent: the text ends at a NUL. -/
def cString (text : List Char) : List Char := text.takeWhile (· ≠ Char.ofNat 0)

/-! ### The copy writer -/

/-- The command of `PostgresCopyWriter::start`. -/
def copyCommand (table : List Char) (columns : List (List Char)) : List Char :=
  "COPY ".toList ++ quoteIdentifier table ++ [' ', '('] ++ listed (columns.map quoteIdentifier) ++
    ") FROM STDIN WITH (FORMAT binary)".toList

/-! ### The schema validator -/

/-- A column of a `Table`: its name and its logical type. -/
structure Column where
  name : List Char
  type : LogicalType
deriving DecidableEq

/-- A `Table`. -/
structure Table where
  name : List Char
  columns : List Column
deriving DecidableEq

/-- `column_names`. -/
def Table.columnNames (t : Table) : List (List Char) := t.columns.map Column.name

/-- The names that the server takes as they are: of 63 bytes at most, and without a NUL. -/
def Table.Fits (t : Table) : Prop :=
  ∀ name ∈ t.name :: t.columnNames, (name.map Char.utf8Size).sum ≤ 63 ∧ Char.ofNat 0 ∉ name

instance (t : Table) : Decidable t.Fits := inferInstanceAs (Decidable (∀ _ ∈ _, _))

/-- `PgTypeFor<…>::name()`. -/
def pgTypeName : LogicalType → List Char
  | .int64 => "BIGINT".toList
  | .int32 => "INTEGER".toList
  | .int16 => "SMALLINT".toList
  | .char => "CHAR(1)".toList
  | .timestampCol => "TIMESTAMPTZ".toList
  | .text => "TEXT".toList
  | .bool => "BOOLEAN".toList
  | .float64 => "DOUBLE PRECISION".toList

/-- `create_table_sql`. -/
def createTableSql (t : Table) : List Char :=
  "CREATE TABLE IF NOT EXISTS ".toList ++ quoteIdentifier t.name ++ [' ', '('] ++
    listed (t.columns.map fun c => quoteIdentifier c.name ++ ' ' :: pgTypeName c.type) ++ [')']

/-- The query of `validate` before the name of the table. -/
def columnsPrefix : List Char :=
  "SELECT column_name, data_type ".toList ++ "FROM information_schema.columns ".toList ++
    "WHERE table_schema = current_schema() ".toList ++ "AND table_name = ".toList

/-- The query behind it. -/
def columnsSuffix : List Char := ' ' :: "ORDER BY ordinal_position".toList

/-- The query of `validate`. -/
def columnsSql (name : List Char) : List Char :=
  columnsPrefix ++ apostrophe :: (escapeSqlString name ++ apostrophe :: columnsSuffix)

/-! ### The batch writer -/

/-- `staging`. -/
def stagingName (target : List Char) : List Char := "_staging_".toList ++ target

/-- The statement before the staging table is made, and behind a failure. -/
def dropStagingSql (target : List Char) : List Char := "DROP TABLE IF EXISTS pg_temp.".toList ++ stagingName target

/-- The statement that makes the staging table. -/
def createStagingSql (target : List Char) : List Char :=
  "CREATE TEMP TABLE ".toList ++ stagingName target ++ " (LIKE ".toList ++ target ++ [')']

/-- The statement that moves the rows to the target. -/
def insertSql (target : List Char) : List Char :=
  "INSERT INTO ".toList ++ target ++ " SELECT * FROM ".toList ++ stagingName target ++
    " ON CONFLICT DO NOTHING".toList

/-- The statement behind it. -/
def dropStagedSql (target : List Char) : List Char := "DROP TABLE pg_temp.".toList ++ stagingName target

end DbnPipe.DbWriter
