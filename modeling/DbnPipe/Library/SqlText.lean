import DbnPipe.Library.Digits
import Mathlib.Data.List.Basic
import Mathlib.Tactic.Common

/-!
# The text of SQL statements

A statement as a list of tokens, read from its text by a machine that goes on character by character.

* `Token`, `Mode` — words, numbers, string literals and single characters; what the machine is in the middle of;
* `step`, `run` — a character, and a text, with the tokens that they complete;
* `tokens`, `tokensFrom_append` — **the tokens of a text, piece by piece**;
* `doubled`, `run_doubled` — a text with its quotes doubled is what a literal holds;
* `words` — the tokens of a piece;
* `Statement`, `fill`, `arguments` — a statement with parameters, with `arguments_fill`: **what is filled in is what
  was given**.

Comments and quoted names are not part of the grammar.
-/

namespace DbnPipe.SqlText

/-- A token. -/
inductive Token where
  | word (w : List Char)
  | number (digits : List Char)
  | literal (text : List Char)
  | symbol (c : Char)
deriving DecidableEq, Repr

/-- What the machine is in the middle of; `closed` is behind a quote that ends a literal, if no other quote follows. -/
inductive Mode where
  | between
  | word (w : List Char)
  | number (digits : List Char)
  | text (text : List Char)
  | closed (text : List Char)
deriving DecidableEq, Repr

/-- The single quote. -/
def quote : Char := Char.ofNat 39

/-- White space. -/
def isBlank (c : Char) : Bool := c == ' ' || c == '\n' || c == '\t' || c == '\r'

/-- The first character of a token. -/
def start (c : Char) : List Token × Mode :=
  if isBlank c then ([], .between)
  else if c = quote then ([], .text [])
  else if c.isAlpha || c == '_' then ([], .word [c])
  else if c.isDigit then ([], .number [c])
  else ([.symbol c], .between)

/-- A token is complete, and the next one starts. -/
def complete (t : Token) (c : Char) : List Token × Mode := (t :: (start c).1, (start c).2)

/-- A character, with the tokens that it completes. -/
def step : Mode → Char → List Token × Mode
  | .between, c => start c
  | .word w, c => if c.isAlphanum || c == '_' then ([], .word (w ++ [c])) else complete (.word w) c
  | .number digits, c => if c.isDigit then ([], .number (digits ++ [c])) else complete (.number digits) c
  | .text text, c => if c = quote then ([], .closed text) else ([], .text (text ++ [c]))
  | .closed text, c => if c = quote then ([], .text (text ++ [quote])) else complete (.literal text) c

/-- The end of the text; a literal has to be closed. -/
def finish : Mode → Option (List Token)
  | .between => some []
  | .word w => some [.word w]
  | .number digits => some [.number digits]
  | .text _ => none
  | .closed text => some [.literal text]

/-- A text, with the tokens that it completes. -/
def run (m : Mode) : List Char → List Token × Mode
  | [] => ([], m)
  | c :: l => ((step m c).1 ++ (run (step m c).2 l).1, (run (step m c).2 l).2)

/-- The tokens of the rest of a text. -/
def tokensFrom (m : Mode) (l : List Char) : Option (List Token) := (finish (run m l).2).map ((run m l).1 ++ ·)

/-- **The tokens of a text.** -/
def tokens (l : List Char) : Option (List Token) := tokensFrom .between l

theorem run_append (m : Mode) (a b : List Char) :
    run m (a ++ b) = ((run m a).1 ++ (run (run m a).2 b).1, (run (run m a).2 b).2) := by
  induction a generalizing m with
  | nil => rfl
  | cons c a ih => rw [List.cons_append, run, ih, run, List.append_assoc]

/-- **Piece by piece**: the tokens that a piece completes come first. -/
theorem tokensFrom_append {m m' : Mode} {a : List Char} {done : List Token} (h : run m a = (done, m')) (b : List Char) :
    tokensFrom m (a ++ b) = (tokensFrom m' b).map (done ++ ·) := by
  rw [tokensFrom, tokensFrom, run_append, h, Option.map_map]
  refine congrArg (Option.map · _) (funext fun rest => ?_)
  exact List.append_assoc done _ rest

/-! ### Literals and numbers -/

/-- A text with its quotes doubled. -/
def doubled (s : List Char) : List Char := s.flatMap fun c => if c = quote then [quote, quote] else [c]

theorem doubled_cons (c : Char) (s : List Char) :
    doubled (c :: s) = (if c = quote then [quote, quote] else [c]) ++ doubled s := List.flatMap_cons

/-- **A literal holds the text whose quotes were doubled.** -/
theorem run_doubled (text s : List Char) : run (.text text) (doubled s) = ([], .text (text ++ s)) := by
  induction s generalizing text with
  | nil => rw [List.append_nil]; rfl
  | cons c s ih =>
    have hnext := ih (text ++ [c])
    rw [List.append_assoc, List.singleton_append] at hnext
    rw [doubled_cons, run_append]
    by_cases hc : c = quote
    · have hquotes : run (.text text) [quote, quote] = ([], .text (text ++ [quote])) := by
        rw [run, step, if_pos rfl, run, step, if_pos rfl]
        rfl
      rw [if_pos hc, hquotes, ← hc, hnext]
      rfl
    · have hplain : run (.text text) [c] = ([], .text (text ++ [c])) := by
        rw [run, step, if_neg hc]
        rfl
      rw [if_neg hc, hplain, hnext]
      rfl

/-- A text without quotes is its own. -/
theorem doubled_of_not_mem {s : List Char} (h : quote ∉ s) : doubled s = s := by
  induction s with
  | nil => rfl
  | cons c s ih =>
    rw [List.mem_cons, not_or] at h
    rw [doubled_cons, if_neg (Ne.symm h.1), ih h.2]
    rfl

/-- **A literal in quotes.** -/
theorem tokens_doubled (s : List Char) : tokens (quote :: (doubled s ++ [quote])) = some [.literal s] := by
  have hopen : run .between [quote] = ([], .text []) := by decide
  have hclose : tokensFrom (.text s) [quote] = some [.literal s] := by
    rw [tokensFrom, run, step, if_pos rfl]
    rfl
  rw [tokens, ← List.singleton_append, tokensFrom_append hopen, tokensFrom_append (run_doubled [] s), List.nil_append,
    hclose]
  rfl

/-- The digits of a number. -/
theorem run_digits {l : List Char} (h : ∀ c ∈ l, c.isDigit = true) (digits : List Char) :
    run (.number digits) l = ([], .number (digits ++ l)) := by
  induction l generalizing digits with
  | nil => rw [List.append_nil]; rfl
  | cons c l ih =>
    rw [run, step, if_pos (h c List.mem_cons_self), ih fun d hd => h d (List.mem_cons_of_mem _ hd), List.append_assoc]
    rfl

/-- A digit starts a number. -/
theorem start_digit {c : Char} (h : c.isDigit = true) : start c = ([], .number [c]) := by
  have hne : ∀ d : Char, d.isDigit = false → c ≠ d := fun _ hd => Digits.ne_of_isDigit h hd
  have hblank : ¬isBlank c = true := by
    simp only [isBlank, Bool.or_eq_true, beq_iff_eq, not_or]
    exact ⟨⟨⟨hne ' ' (by decide), hne '\n' (by decide)⟩, hne '\t' (by decide)⟩, hne '\r' (by decide)⟩
  have hword : ¬(c.isAlpha || c == '_') = true := by
    rw [Bool.or_eq_true, beq_iff_eq, not_or]
    refine ⟨?_, hne '_' (by decide)⟩
    have hle := (Digits.toNat_of_isDigit h).2
    show ¬(c.isUpper || c.isLower) = true
    rw [Bool.or_eq_true]
    rintro (hupper | hlower)
    · have hge : 65 ≤ c.toNat := (of_decide_eq_true hupper).1
      omega
    · have hge : 97 ≤ c.toNat := of_decide_eq_true (Bool.and_eq_true_iff.mp hlower).1
      omega
  rw [start, if_neg hblank, if_neg (hne quote (by decide)), if_neg hword, if_pos h]

/-- A number starts with its first digit. -/
theorem run_number {l : List Char} (hne : l ≠ []) (h : ∀ c ∈ l, c.isDigit = true) :
    run .between l = ([], .number l) := by
  cases l with
  | nil => exact absurd rfl hne
  | cons c l =>
    have hrest := run_digits (fun d hd => h d (List.mem_cons_of_mem _ hd)) [c]
    rw [run, step, start_digit (h c List.mem_cons_self), hrest]
    rfl

/-- **A literal in a statement**, which goes on with another character than a quote. -/
theorem tokensFrom_literal (s : List Char) {c : Char} (hc : c ≠ quote) (rest : List Char) :
    tokensFrom .between (quote :: (doubled s ++ quote :: c :: rest)) =
      (tokensFrom .between (c :: rest)).map (.literal s :: ·) := by
  have hopen : run .between [quote] = ([], .text []) := by decide
  have hclose : tokensFrom (.text s) (quote :: c :: rest) =
      (tokensFrom .between (c :: rest)).map (.literal s :: ·) := by
    rw [tokensFrom, tokensFrom, run, step, if_pos rfl, run, step, if_neg hc, run, step, Option.map_map]
    rfl
  rw [← List.singleton_append, tokensFrom_append hopen, tokensFrom_append (run_doubled [] s), List.nil_append, hclose,
    Option.map_map, Option.map_map]
  rfl

/-- **A number in a statement**, which goes on with another character than a digit. -/
theorem tokensFrom_number {l : List Char} (hne : l ≠ []) (h : ∀ c ∈ l, c.isDigit = true) {c : Char}
    (hc : c.isDigit = false) (rest : List Char) :
    tokensFrom .between (l ++ c :: rest) = (tokensFrom .between (c :: rest)).map (.number l :: ·) := by
  have hend : tokensFrom (.number l) (c :: rest) = (tokensFrom .between (c :: rest)).map (.number l :: ·) := by
    rw [tokensFrom, tokensFrom, run, step, if_neg (Bool.eq_false_iff.mp hc), run, step, Option.map_map]
    rfl
  rw [tokensFrom_append (run_number hne h), hend, Option.map_map]
  rfl

/-! ### Statements with parameters -/

/-- A statement; a parameter is `none`. -/
abbrev Statement := List (Option Token)

/-- The tokens of a piece of a statement. -/
def words (text : List Char) : List Token := (tokens text).getD []

/-- A piece that ends between two tokens. -/
theorem run_words {text : List Char} (h : (run .between text).2 = .between) :
    run .between text = (words text, .between) := by
  have hwords : words text = (run .between text).1 := by
    rw [words, tokens, tokensFrom, h]
    exact List.append_nil _
  rw [hwords]
  exact Prod.ext rfl h

theorem tokens_words {text : List Char} (h : (tokens text).isSome = true) : tokens text = some (words text) := by
  obtain ⟨l, hl⟩ := Option.isSome_iff_exists.mp h
  rw [words, hl]
  rfl

/-- A statement with its arguments. -/
def fill : Statement → List Token → List Token
  | [], _ => []
  | some t :: p, args => t :: fill p args
  | none :: p, a :: args => a :: fill p args
  | none :: _, [] => []

/-- The arguments with which tokens are the statement. -/
def arguments : Statement → List Token → Option (List Token)
  | [], [] => some []
  | some t :: p, t' :: l => if t' = t then arguments p l else none
  | none :: p, a :: l => (arguments p l).map (a :: ·)
  | _, _ => none

/-- **What is filled in is what was given.** -/
theorem arguments_fill (p : Statement) (args : List Token) (h : args.length = p.count none) :
    arguments p (fill p args) = some args := by
  induction p, args using fill.induct with
  | case1 args =>
    rw [List.count_nil, List.length_eq_zero_iff] at h
    rw [h]
    rfl
  | case2 t p args ih =>
    rw [List.count_cons_of_ne (Option.some_ne_none t)] at h
    rw [fill, arguments, if_pos rfl, ih h]
  | case3 p a args ih =>
    rw [List.length_cons, List.count_cons_self, Nat.add_right_cancel_iff] at h
    rw [fill, arguments, ih h]
    rfl
  | case4 p =>
    rw [List.count_cons_self] at h
    exact absurd h (by simp)

/-- Tokens are not parameters. -/
theorem count_map_some (l : List Token) : (l.map some).count none = 0 := by
  rw [List.count_eq_zero, List.mem_map]
  rintro ⟨t, -, ht⟩
  exact Option.some_ne_none t ht

/-- Tokens that are not parameters stay. -/
theorem fill_some (done : List Token) (p : Statement) (args : List Token) :
    fill (done.map some ++ p) args = done ++ fill p args := by
  induction done with
  | nil => rfl
  | cons t done ih => rw [List.map_cons, List.cons_append, fill, ih, List.cons_append]

theorem fill_map_some (done args : List Token) : fill (done.map some) args = done := by
  have h := fill_some done [] args
  rw [List.append_nil] at h
  exact h.trans (List.append_nil done)

end DbnPipe.SqlText
