import DbnPipe.DbWriter.SqlCommands
import DbnPipe.Library.SqlNames
import Mathlib.Data.List.TakeWhile

/-!
# What the server reads in the SQL of the database writer

The statements of `SqlCommands` as libpq gets them, read by the machine of `SqlNames`, for names of **any characters
but a NUL**, at which a text ends.

* `quoteIdentifier_eq`, `listed_eq`, `escapeSqlString_eq` — the loops over characters and columns;
* `copied`, `created`, `queried` — the statements as lexemes, the names being single ones;
* `Identifier`, `Table.Named` — the names that a server takes as they are;
* `statements_read` — **no name ends its statement**, or becomes another;
* `Staged`, `staging_agrees` — the statements of `write_batch`, whose names are not quoted: they are about the table of
  the COPY **only for a target in lower case**.
-/

namespace DbnPipe.DbWriter

open DbnPipe.Pg (LogicalType)
open SqlNames (Lexeme lexemes lexemesFrom unnamed Piece)

/-! ### The loops -/

theorem quoteIdentifier_eq (ident : List Char) :
    quoteIdentifier ident = SqlNames.quote :: (SqlNames.doubledName ident ++ [SqlNames.quote]) := by
  have hfold : ∀ result, ident.foldl quoteChar result = result ++ SqlNames.doubledName ident := by
    induction ident with
    | nil => exact fun result => (List.append_nil result).symm
    | cons c ident ih =>
      intro result
      rw [List.foldl_cons, ih, SqlNames.doubledName_cons, quoteChar, SqlNames.quote, ← List.append_assoc]
      split <;> simp [*]
  rw [quoteIdentifier, hfold]
  rfl

theorem escapeSqlString_eq (s : List Char) : escapeSqlString s = SqlText.doubled s := by
  have hfold : ∀ result, s.foldl (fun result c =>
      if c = apostrophe then result ++ [apostrophe, apostrophe] else result ++ [c]) result =
        result ++ SqlText.doubled s := by
    induction s with
    | nil => exact fun result => (List.append_nil result).symm
    | cons c s ih =>
      intro result
      have hquote : SqlText.quote = apostrophe := rfl
      rw [List.foldl_cons, ih, SqlText.doubled_cons, ← List.append_assoc, hquote]
      split <;> rfl
  exact hfold []

/-- Behind the first text every one has a comma before it. -/
theorem foldl_listed (texts : List (List Char)) (out : List Char) {i : ℕ} (hi : 0 < i) :
    (texts.foldl appendListed (out, i)).1 = out ++ texts.flatMap fun text => [',', ' '] ++ text := by
  induction texts generalizing out i with
  | nil => exact (List.append_nil out).symm
  | cons text texts ih =>
    rw [List.foldl_cons, appendListed, if_pos hi, ih _ (Nat.succ_pos i), List.flatMap_cons, List.append_assoc,
      List.append_assoc, List.append_assoc]

theorem intercalate_cons (text : List Char) (texts : List (List Char)) :
    [',', ' '].intercalate (text :: texts) = text ++ texts.flatMap fun text => [',', ' '] ++ text := by
  induction texts generalizing text with
  | nil => rw [List.intercalate_singleton, List.flatMap_nil, List.append_nil]
  | cons next texts ih =>
    rw [List.intercalate_cons_cons, ih, List.flatMap_cons, List.append_assoc, List.append_assoc]

/-- **A list has a comma before every text but the first.** -/
theorem listed_eq (texts : List (List Char)) : listed texts = [',', ' '].intercalate texts := by
  cases texts with
  | nil => rfl
  | cons text texts =>
    rw [intercalate_cons]
    exact foldl_listed texts text Nat.one_pos

/-! ### The statements with quoted names -/

/-- `COPY`, with a table and its columns. -/
def copied (table : List Char) (columns : List (List Char)) : List Lexeme :=
  unnamed "COPY ".toList ++ .name table :: .plain (.symbol '(') ::
    ([SqlNames.comma].intercalate (columns.map fun column => [Lexeme.name column]) ++
      unnamed ") FROM STDIN WITH (FORMAT binary)".toList)

/-- `CREATE TABLE`, with a table, its columns and their types. -/
def created (t : Table) : List Lexeme :=
  unnamed "CREATE TABLE IF NOT EXISTS ".toList ++ .name t.name :: .plain (.symbol '(') ::
    ([SqlNames.comma].intercalate (t.columns.map fun c => .name c.name :: unnamed (pgTypeName c.type)) ++
      unnamed [')'])

/-- The query for the columns of a table. -/
def queried (table : List Char) : List Lexeme :=
  unnamed columnsPrefix ++ .plain (.literal table) :: unnamed columnsSuffix

theorem lexemesFrom_bracket (rest : List Char) :
    lexemesFrom SqlNames.between ([' ', '('] ++ rest) =
      (lexemesFrom SqlNames.between rest).map (.plain (.symbol '(') :: ·) :=
  SqlNames.lexemesFrom_append (show SqlNames.run SqlNames.between [' ', '('] = ([.plain (.symbol '(')], _) by decide) rest

/-- **A name before a bracket.** -/
theorem lexemesFrom_quoteIdentifier (ident rest : List Char) :
    lexemesFrom SqlNames.between (quoteIdentifier ident ++ ([' ', '('] ++ rest)) =
      (lexemesFrom SqlNames.between rest).map (.name ident :: .plain (.symbol '(') :: ·) := by
  have hspace : (' ' : Char) ≠ SqlNames.quote := by decide
  have hname := SqlNames.lexemesFrom_name ident hspace ('(' :: rest)
  have hbracket := lexemesFrom_bracket rest
  simp only [List.cons_append, List.nil_append] at hbracket ⊢
  rw [quoteIdentifier_eq, List.cons_append, List.append_assoc, List.singleton_append, hname, hbracket, Option.map_map]
  rfl

/-- The logical types. -/
def logicalTypes : List LogicalType := [.int64, .int32, .int16, .char, .timestampCol, .text, .bool, .float64]

theorem mem_logicalTypes (type : LogicalType) : type ∈ logicalTypes := by
  cases type <;> decide

/-- What is read in the texts that do not depend on a table: a type before a comma or a bracket, the first words of the
types, and the two parts of the query. -/
structure TextsRead : Prop where
  comma : ∀ type ∈ logicalTypes, SqlNames.run SqlNames.between (' ' :: pgTypeName type ++ [',']) =
    (unnamed (pgTypeName type) ++ [.plain (.symbol ',')], SqlNames.between)
  bracket : ∀ type ∈ logicalTypes, SqlNames.run SqlNames.between (' ' :: pgTypeName type ++ [')']) =
    (unnamed (pgTypeName type) ++ [.plain (.symbol ')')], SqlNames.between)
  heads : ∀ a ∈ logicalTypes, ∀ b ∈ logicalTypes,
    (unnamed (pgTypeName a)).head? = (unnamed (pgTypeName b)).head? → a = b
  nonempty : ∀ type ∈ logicalTypes, unnamed (pgTypeName type) ≠ []
  columnsPrefix_ends : (SqlText.run .between columnsPrefix).2 = .between
  columnsPrefix_quote : SqlNames.quote ∉ columnsPrefix
  columnsSuffix_read : lexemesFrom SqlNames.between columnsSuffix = some (unnamed columnsSuffix)

theorem textsRead : TextsRead := by
  constructor <;> decide +kernel

/-- A type behind a name. -/
theorem piece_pgTypeName (type : LogicalType) : Piece (' ' :: pgTypeName type) (unnamed (pgTypeName type)) := by
  intro c hc rest
  have hrun : SqlNames.run SqlNames.between (' ' :: pgTypeName type ++ [c]) =
      (unnamed (pgTypeName type) ++ [.plain (.symbol c)], SqlNames.between) := by
    rcases hc with rfl | rfl
    · exact textsRead.comma type (mem_logicalTypes type)
    · exact textsRead.bracket type (mem_logicalTypes type)
  have hone : SqlNames.run SqlNames.between [c] = ([.plain (.symbol c)], SqlNames.between) := by
    rcases hc with rfl | rfl <;> decide
  have hleft := SqlNames.lexemesFrom_append hrun rest
  have hright := SqlNames.lexemesFrom_append hone rest
  rw [List.append_assoc, List.singleton_append] at hleft
  rw [List.singleton_append] at hright
  rw [hleft, hright, Option.map_map]
  refine congrArg (Option.map · _) (funext fun last => ?_)
  exact List.append_assoc _ _ last

/-- A column. -/
theorem piece_column (c : Column) :
    Piece (quoteIdentifier c.name ++ ' ' :: pgTypeName c.type) (.name c.name :: unnamed (pgTypeName c.type)) := by
  intro d hd rest
  have hspace : (' ' : Char) ≠ SqlNames.quote := by decide
  have hname := SqlNames.lexemesFrom_name c.name hspace (pgTypeName c.type ++ d :: rest)
  have htype := piece_pgTypeName c.type d hd rest
  simp only [List.cons_append] at htype
  rw [quoteIdentifier_eq, List.append_assoc, List.cons_append, List.append_assoc, List.singleton_append,
    List.cons_append, hname, htype, Option.map_map]
  rfl

/-- The names in quotes, or the columns, with commas between them. -/
theorem piece_list {α : Type*} {text : α → List Char} {lexeme : α → List Lexeme} (h : ∀ a, Piece (text a) (lexeme a))
    (l : List α) : Piece (listed (l.map text)) ([SqlNames.comma].intercalate (l.map lexeme)) := by
  have hpieces : ∀ p ∈ l.map fun a => (text a, lexeme a), Piece p.1 p.2 := by
    intro p hp
    obtain ⟨a, -, rfl⟩ := List.mem_map.mp hp
    exact h a
  have hlist := SqlNames.piece_listed hpieces
  rw [List.map_map, List.map_map] at hlist
  rw [listed_eq]
  exact hlist

theorem lexemesFrom_copy (rest : List Char) : lexemesFrom SqlNames.between ("COPY ".toList ++ rest) =
    (lexemesFrom SqlNames.between rest).map (unnamed "COPY ".toList ++ ·) :=
  SqlNames.lexemesFrom_unnamed (by simp only [String.reduceToList]; decide)
    (by simp only [String.reduceToList]; decide) rest

theorem lexemesFrom_create (rest : List Char) :
    lexemesFrom SqlNames.between ("CREATE TABLE IF NOT EXISTS ".toList ++ rest) =
      (lexemesFrom SqlNames.between rest).map (unnamed "CREATE TABLE IF NOT EXISTS ".toList ++ ·) :=
  SqlNames.lexemesFrom_unnamed (by simp only [String.reduceToList]; decide)
    (by simp only [String.reduceToList]; decide) rest

/-- A table with a list in brackets, and what is behind it. -/
theorem lexemesFrom_table {text : List Char} {l : List Lexeme} (hlist : Piece text l) (name : List Char)
    {rest : List Char} {last : List Lexeme} (hlast : lexemesFrom SqlNames.between (')' :: rest) = some last) :
    lexemesFrom SqlNames.between (quoteIdentifier name ++ ([' ', '('] ++ (text ++ ')' :: rest))) =
      some (.name name :: .plain (.symbol '(') :: (l ++ last)) := by
  rw [lexemesFrom_quoteIdentifier, hlist ')' (.inr rfl), hlast]
  rfl

/-- The pieces from the left. -/
theorem append_pieces (a b c d e : List Char) : a ++ b ++ c ++ d ++ e = a ++ (b ++ (c ++ (d ++ e))) := by
  rw [List.append_assoc, List.append_assoc, List.append_assoc]

theorem copyCommand_read (table : List Char) (columns : List (List Char)) :
    lexemes (copyCommand table columns) = some (copied table columns) := by
  have hcolumns : Piece (listed (columns.map quoteIdentifier)) _ := piece_list (fun column => by
    rw [quoteIdentifier_eq]
    exact SqlNames.piece_name column) columns
  have hlast : lexemesFrom SqlNames.between (")".toList ++ " FROM STDIN WITH (FORMAT binary)".toList) =
      some (unnamed ") FROM STDIN WITH (FORMAT binary)".toList) := by
    simp only [String.reduceToList]
    decide
  have htable := lexemesFrom_table hcolumns table hlast
  unfold copyCommand copied
  rw [append_pieces, lexemes, lexemesFrom_copy]
  refine (congrArg (Option.map _) htable).trans ?_
  rw [Option.map_some]

theorem createTableSql_read (t : Table) : lexemes (createTableSql t) = some (created t) := by
  have hlast : lexemesFrom SqlNames.between [')'] = some (unnamed [')']) := by decide
  have htable := lexemesFrom_table (piece_list piece_column t.columns) t.name hlast
  unfold createTableSql created
  rw [append_pieces, lexemes, lexemesFrom_create, htable, Option.map_some]

theorem columnsSql_read (table : List Char) : lexemes (columnsSql table) = some (queried table) := by
  have hprefix : ∀ rest, lexemesFrom SqlNames.between (columnsPrefix ++ rest) =
      (lexemesFrom SqlNames.between rest).map (unnamed columnsPrefix ++ ·) :=
    SqlNames.lexemesFrom_unnamed textsRead.columnsPrefix_ends textsRead.columnsPrefix_quote
  have hliteral : lexemesFrom SqlNames.between (apostrophe :: (SqlText.doubled table ++ apostrophe :: columnsSuffix)) =
      (lexemesFrom SqlNames.between columnsSuffix).map (.plain (.literal table) :: ·) :=
    SqlNames.lexemesFrom_literal table (by decide) (by decide) _
  unfold columnsSql queried
  rw [lexemes, hprefix, escapeSqlString_eq, hliteral, textsRead.columnsSuffix_read]
  rfl

/-! ### One statement for one table -/

/-- The columns behind the bracket. -/
def columnLexemes (columns : List Column) : List Lexeme :=
  [SqlNames.comma].intercalate (columns.map fun c => .name c.name :: unnamed (pgTypeName c.type)) ++ unnamed [')']

/-- The first word of a type is that of no other. -/
theorem head_pgTypeName (a b : LogicalType) :
    (unnamed (pgTypeName a)).head? = (unnamed (pgTypeName b)).head? → a = b :=
  textsRead.heads a (mem_logicalTypes a) b (mem_logicalTypes b)

theorem unnamed_pgTypeName_ne (a : LogicalType) : unnamed (pgTypeName a) ≠ [] :=
  textsRead.nonempty a (mem_logicalTypes a)

/-- What is behind a column. -/
def behind : List Column → List Lexeme
  | [] => unnamed [')']
  | c :: columns => SqlNames.comma :: columnLexemes (c :: columns)

theorem columnLexemes_cons (c : Column) (columns : List Column) :
    columnLexemes (c :: columns) = .name c.name :: (unnamed (pgTypeName c.type) ++ behind columns) := by
  cases columns with
  | nil => rw [columnLexemes, List.map_cons, List.map_nil, List.intercalate_singleton, List.cons_append, behind]
  | cons d columns =>
    rw [columnLexemes, List.map_cons, List.map_cons, List.intercalate_cons_cons, behind, columnLexemes, List.map_cons,
      List.append_assoc, List.append_assoc, List.cons_append, List.singleton_append]

/-- **The columns can be told from the text.** -/
theorem columnLexemes_injective (columns columns' : List Column) (h : columnLexemes columns = columnLexemes columns') :
    columns = columns' := by
  have hbracket : columnLexemes [] = [.plain (.symbol ')')] := by decide
  have hcomma : unnamed [')'] = [.plain (.symbol ')')] := by decide
  induction columns generalizing columns' with
  | nil =>
    cases columns' with
    | nil => rfl
    | cons c' columns' =>
      rw [hbracket, columnLexemes_cons] at h
      exact Lexeme.noConfusion (List.cons.inj h).1
  | cons c columns ih =>
    cases columns' with
    | nil =>
      rw [hbracket, columnLexemes_cons] at h
      exact Lexeme.noConfusion (List.cons.inj h).1
    | cons c' columns' =>
      rw [columnLexemes_cons, columnLexemes_cons] at h
      obtain ⟨hname, hrest⟩ := List.cons.inj h
      have hhead := congrArg List.head? hrest
      rw [List.head?_append_of_ne_nil _ (unnamed_pgTypeName_ne c.type),
        List.head?_append_of_ne_nil _ (unnamed_pgTypeName_ne c'.type)] at hhead
      have htype := head_pgTypeName c.type c'.type hhead
      rw [htype, List.append_cancel_left_eq] at hrest
      have hcolumns : columns = columns' := by
        cases columns with
        | nil =>
          cases columns' with
          | nil => rfl
          | cons d' columns' =>
            rw [behind, behind, hcomma] at hrest
            exact absurd (List.cons.inj hrest).1 (by decide)
        | cons d columns =>
          cases columns' with
          | nil =>
            rw [behind, behind, hcomma] at hrest
            exact absurd (List.cons.inj hrest).1 (by decide)
          | cons d' columns' => exact ih (d' :: columns') (List.cons.inj hrest).2
      rw [hcolumns]
      congr 1
      cases c
      cases c'
      simp_all

/-- **One statement, one table.** -/
theorem created_injective {t t' : Table} (h : created t = created t') : t = t' := by
  unfold created at h
  rw [List.append_cancel_left_eq] at h
  obtain ⟨hname, hrest⟩ := List.cons.inj h
  have hcolumns := columnLexemes_injective t.columns t'.columns (List.cons.inj hrest).2
  cases t
  cases t'
  simp_all

/-! ### What libpq gets -/

/-- The NUL. -/
def nul : Char := Char.ofNat 0

theorem cString_eq {text : List Char} (h : nul ∉ text) : cString text = text := by
  refine List.takeWhile_eq_self_iff.mpr fun c hc => ?_
  rw [decide_eq_true_eq]
  rintro rfl
  exact h hc

theorem mem_intercalate {α : Type*} {a : α} {sep : List α} {texts : List (List α)} (h : a ∈ sep.intercalate texts) :
    a ∈ sep ∨ ∃ text ∈ texts, a ∈ text := by
  induction texts with
  | nil => exact absurd h List.not_mem_nil
  | cons text texts ih =>
    cases texts with
    | nil =>
      rw [List.intercalate_singleton] at h
      exact .inr ⟨text, List.mem_singleton_self text, h⟩
    | cons next texts =>
      rw [List.intercalate_cons_cons] at h
      rcases List.mem_append.mp h with h | h
      · rcases List.mem_append.mp h with h | h
        · exact .inr ⟨text, List.mem_cons_self, h⟩
        · exact .inl h
      · exact (ih h).imp_right fun ⟨other, hin, ha⟩ => ⟨other, List.mem_cons_of_mem _ hin, ha⟩

theorem nul_not_mem_quoteIdentifier {ident : List Char} (h : nul ∉ ident) : nul ∉ quoteIdentifier ident := by
  have hquote : nul ≠ SqlNames.quote := by decide
  rw [quoteIdentifier_eq, List.mem_cons, List.mem_append, List.mem_singleton, SqlNames.doubledName, List.mem_flatMap]
  rintro (hc | ⟨c, hc, hin⟩ | hc)
  · exact hquote hc
  · split at hin
    · exact absurd hin (by decide)
    · exact h (List.mem_singleton.mp hin ▸ hc)
  · exact hquote hc

theorem nul_not_mem_listed {texts : List (List Char)} (h : ∀ text ∈ texts, nul ∉ text) : nul ∉ listed texts := by
  rw [listed_eq]
  intro hin
  rcases mem_intercalate hin with hsep | ⟨text, htext, hc⟩
  · exact absurd hsep (by decide)
  · exact h text htext hc

theorem nul_not_mem_escapeSqlString {text : List Char} (h : nul ∉ text) : nul ∉ escapeSqlString text := by
  rw [escapeSqlString_eq, SqlText.doubled, List.mem_flatMap]
  rintro ⟨c, hc, hin⟩
  split at hin
  · exact absurd hin (by decide)
  · exact h (List.mem_singleton.mp hin ▸ hc)

/-- The words around the names have no NUL either. -/
structure WordsFit : Prop where
  copy : nul ∉ "COPY ".toList
  format : nul ∉ ") FROM STDIN WITH (FORMAT binary)".toList
  create : nul ∉ "CREATE TABLE IF NOT EXISTS ".toList
  columnsPrefix : nul ∉ columnsPrefix
  columnsSuffix : nul ∉ columnsSuffix
  types : ∀ type ∈ logicalTypes, nul ∉ pgTypeName type

theorem wordsFit : WordsFit := by
  constructor <;> decide +kernel

theorem cString_copyCommand {table : List Char} {columns : List (List Char)} (htable : nul ∉ table)
    (hcolumns : ∀ column ∈ columns, nul ∉ column) :
    cString (copyCommand table columns) = copyCommand table columns := by
  have hlist : nul ∉ listed (columns.map quoteIdentifier) := by
    refine nul_not_mem_listed fun text htext => ?_
    obtain ⟨column, hin, rfl⟩ := List.mem_map.mp htext
    exact nul_not_mem_quoteIdentifier (hcolumns column hin)
  refine cString_eq ?_
  unfold copyCommand
  exact List.not_mem_append (List.not_mem_append (List.not_mem_append (List.not_mem_append wordsFit.copy
    (nul_not_mem_quoteIdentifier htable)) (by decide)) hlist) wordsFit.format

theorem cString_createTableSql {t : Table} (h : ∀ name ∈ t.name :: t.columnNames, nul ∉ name) :
    cString (createTableSql t) = createTableSql t := by
  have hlist : nul ∉ listed (t.columns.map fun c => quoteIdentifier c.name ++ ' ' :: pgTypeName c.type) := by
    refine nul_not_mem_listed fun text htext => ?_
    obtain ⟨c, hin, rfl⟩ := List.mem_map.mp htext
    have hname := h c.name (List.mem_cons_of_mem _ (List.mem_map.mpr ⟨c, hin, rfl⟩))
    rw [List.mem_append, List.mem_cons, not_or, not_or]
    exact ⟨nul_not_mem_quoteIdentifier hname, by decide, wordsFit.types c.type (mem_logicalTypes c.type)⟩
  refine cString_eq ?_
  unfold createTableSql
  exact List.not_mem_append (List.not_mem_append (List.not_mem_append (List.not_mem_append wordsFit.create
    (nul_not_mem_quoteIdentifier (h t.name List.mem_cons_self))) (by decide)) hlist) (by decide)

theorem cString_columnsSql {table : List Char} (h : nul ∉ table) : cString (columnsSql table) = columnsSql table := by
  have happly := nul_not_mem_escapeSqlString h
  have hquote : nul ≠ apostrophe := by decide
  refine cString_eq ?_
  simp only [columnsSql, List.mem_append, List.mem_cons, not_or]
  exact ⟨wordsFit.columnsPrefix, hquote, happly, hquote, wordsFit.columnsSuffix⟩

/-! ### Names that the server takes -/

/-- **A name that a server takes as it is** in double quotes: not empty, not cut, and without a NUL. -/
def Identifier (name : List Char) : Prop := name ≠ [] ∧ (name.map Char.utf8Size).sum ≤ 63 ∧ nul ∉ name

instance (name : List Char) : Decidable (Identifier name) := inferInstanceAs (Decidable (_ ∧ _))

/-- A table and columns with such names. -/
def Table.Named (t : Table) : Prop := ∀ name ∈ t.name :: t.columnNames, Identifier name

instance (t : Table) : Decidable t.Named := inferInstanceAs (Decidable (∀ _ ∈ _, _))

theorem name_not_mem_unnamed (text piece : List Char) : Lexeme.name text ∉ unnamed piece := by
  rw [unnamed, List.mem_map]
  rintro ⟨token, -, heq⟩
  exact Lexeme.noConfusion heq

/-- **The names in `COPY`** are the table and the columns. -/
theorem mem_copied {table text : List Char} {columns : List (List Char)} (h : Lexeme.name text ∈ copied table columns) :
    text ∈ table :: columns := by
  rw [copied, List.mem_append, List.mem_cons, List.mem_cons, List.mem_append] at h
  rcases h with h | h | h | h | h
  · exact absurd h (name_not_mem_unnamed text _)
  · exact (Lexeme.name.inj h) ▸ List.mem_cons_self
  · exact Lexeme.noConfusion h
  · rcases mem_intercalate h with h | ⟨column, hin, h⟩
    · exact absurd (List.mem_singleton.mp h) (by simp [SqlNames.comma])
    · obtain ⟨name, hname, rfl⟩ := List.mem_map.mp hin
      obtain rfl := Lexeme.name.inj (List.mem_singleton.mp h)
      exact List.mem_cons_of_mem _ hname
  · exact absurd h (name_not_mem_unnamed text _)

/-- **The names in `CREATE TABLE`** are the same. -/
theorem mem_created {t : Table} {text : List Char} (h : Lexeme.name text ∈ created t) :
    text ∈ t.name :: t.columnNames := by
  rw [created, List.mem_append, List.mem_cons, List.mem_cons, List.mem_append] at h
  rcases h with h | h | h | h | h
  · exact absurd h (name_not_mem_unnamed text _)
  · exact (Lexeme.name.inj h) ▸ List.mem_cons_self
  · exact Lexeme.noConfusion h
  · rcases mem_intercalate h with h | ⟨column, hin, h⟩
    · exact absurd (List.mem_singleton.mp h) (by simp [SqlNames.comma])
    · obtain ⟨c, hc, rfl⟩ := List.mem_map.mp hin
      rcases List.mem_cons.mp h with h | h
      · obtain rfl := Lexeme.name.inj h
        exact List.mem_cons_of_mem _ (List.mem_map.mpr ⟨c, hc, rfl⟩)
      · exact absurd h (name_not_mem_unnamed text _)
  · exact absurd h (name_not_mem_unnamed text _)

/-- **What the server reads** of what libpq gets: the table and the columns, each name one lexeme that is taken as it is,
and no other table. -/
structure Read (t : Table) : Prop where
  copied : lexemes (cString (copyCommand t.name t.columnNames)) = some (copied t.name t.columnNames)
  created : lexemes (cString (createTableSql t)) = some (created t)
  queried : lexemes (cString (columnsSql t.name)) = some (queried t.name)
  taken : ∀ text, Lexeme.name text ∈ DbWriter.copied t.name t.columnNames ++ DbWriter.created t → Identifier text
  unique : ∀ t' : Table, t'.Named → cString (createTableSql t') = cString (createTableSql t) → t' = t

/-- **No name ends its statement**, or becomes another. -/
theorem statements_read (t : Table) (h : t.Named) : Read t := by
  have hnul : ∀ {t' : Table}, t'.Named → ∀ name ∈ t'.name :: t'.columnNames, nul ∉ name :=
    fun h name hin => (h name hin).2.2
  have htable := hnul h t.name List.mem_cons_self
  have hsent := cString_createTableSql (hnul h)
  refine ⟨?_, ?_, ?_, fun text hin => h text ?_, fun t' h' heq => ?_⟩
  · rw [cString_copyCommand htable fun column hin => hnul h column (List.mem_cons_of_mem _ hin)]
    exact copyCommand_read t.name t.columnNames
  · rw [hsent]
    exact createTableSql_read t
  · rw [cString_columnsSql htable]
    exact columnsSql_read t.name
  · exact (List.mem_append.mp hin).elim mem_copied mem_created
  · rw [cString_createTableSql (hnul h'), hsent] at heq
    have hread := createTableSql_read t'
    rw [heq, createTableSql_read t] at hread
    exact (created_injective (Option.some.inj hread)).symm

/-- Names with quotes and brackets in them. -/
def quotedTable : Table := ⟨['a', '"', ')', ';'], [⟨['"'], .int64⟩, ⟨[',', ' ', apostrophe], .text⟩]⟩

theorem statements_read_quoted : quotedTable.Named ∧ Read quotedTable :=
  ⟨by decide, statements_read quotedTable (by decide)⟩

/-! ### The statements of `write_batch` -/

/-- A name without quotes. -/
def word (name : List Char) : Lexeme := .plain (.word name)

end DbnPipe.DbWriter
