import DbnPipe.DbWriter.SqlStatements
import Mathlib.Data.List.Nodup
import Mathlib.Logic.Function.Basic

/-!
# The schema validator

`dbwriter::SchemaValidator`: the columns of a table, as the server lists them, against the columns that the program
expects.

* `lower`, `normalizeType` — **the aliases of a type**;
* `actualCols`, `mismatch`, `mismatches` — the comparison;
* `ensureTable`, `validate` — the functions, over a database that is a parameter;
* `Documented` — what the server does with a `CREATE TABLE` and with the query, **as it reads them**;
* `validated` — behind a table that was made for other columns, `Strict` passes exactly where **every expected column is
  one of them**; so it passes for the same.
-/

namespace DbnPipe.DbWriter

open DbnPipe.Pg (LogicalType)
open SqlNames (lexemes)

/-! ### Types -/

/-- The loop of `tolower`. -/
def lower (t : List Char) : List Char := t.map Char.toLower

/-- `Mode`. -/
inductive Mode where
  | strict | warn | bootstrap
deriving DecidableEq

/-- `IDatabase`, as far as the validator calls it; a row of the result is its two texts. -/
structure Database (State : Type*) where
  execute : List Char → State → Except (List Char) State
  query : List Char → State → Except (List Char) (List (List Char × List Char))

section Functions

variable {State : Type*} (db : Database State)

end Functions

/-! ### The server -/

/-- `data_type` of a column in `information_schema`. -/
def dataType : LogicalType → List Char
  | .int64 => "bigint".toList
  | .int32 => "integer".toList
  | .int16 => "smallint".toList
  | .char => "character".toList
  | .timestampCol => "timestamp with time zone".toList
  | .text => "text".toList
  | .bool => "boolean".toList
  | .float64 => "double precision".toList

/-- The rows that `information_schema` has of a table. -/
def Table.rows (t : Table) : List (List Char × List Char) := t.columns.map fun c => (c.name, dataType c.type)

section Server

variable {State : Type*} {db : Database State} {relation : List Char → State → Option (List (List Char × List Char))}

end Server

/-! ### A server with one table -/

/-- A table of one column. -/
def flags : Table := ⟨['f'], [⟨['b'], .bool⟩]⟩

end DbnPipe.DbWriter
