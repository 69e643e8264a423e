import DbnPipe.Library.Digits
import DbnPipe.Stream.BufferChain
import Mathlib.Data.List.TakeWhile
import Mathlib.Tactic.Common

/-!
# Completed ranges as a text

The list that `DuckDbStorage::StoreProgress` writes, `[[a,b],[c,d],...]`, and the scanner `ParseRanges`, which looks
for the next comma and the next bracket from each opening bracket on.

* `rangesText` — **the text**, range by range;
* `find`, `substr`, `stoull` — what the scanner calls, with `none` for an exception;
* `parseRange`, `parseLoop`, `parseRanges` — the body of the loop, the loop with a bound on its rounds, and the
  function;
* `parseRanges_terminates` — **the loop ends on every text**, since the position grows;
* `parseRanges_rangesText` — **the text of a list is read back**.
-/

namespace DbnPipe.Storage

/-- A range of bytes. -/
abbrev Range := UInt64 × UInt64

/-! ### Writing -/

/-- `{}` of a number. -/
def decimalText (n : UInt64) : List Char := Nat.toDigits 10 n.toNat

/-- `[{},{}]`. -/
def rangeText (r : Range) : List Char := ['['] ++ decimalText r.1 ++ [','] ++ decimalText r.2 ++ [']']

/-- One round of the loop of `StoreProgress`, with the index. -/
def appendRange (s : List Char × ℕ) (r : Range) : List Char × ℕ :=
  let out := if 0 < s.2 then s.1 ++ [','] else s.1
  (out ++ rangeText r, s.2 + 1)

/-- `ranges_str`. -/
def rangesText (ranges : List Range) : List Char := (ranges.foldl appendRange (['['], 0)).1 ++ [']']

/-! ### Reading -/

/-- `str.find(c, pos)`. -/
def find (c : Char) (str : List Char) (pos : ℕ) : Option ℕ := ((str.drop pos).findIdx? (· == c)).map (pos + ·)

/-- `str.substr(pos, n)`. -/
def substr (str : List Char) (pos n : ℕ) : Option (List Char) :=
  if str.length < pos then none else some ((str.drop pos).take n)

/-- `std::isspace` in the C locale. -/
def isSpace (c : Char) : Bool := c == ' ' || (9 ≤ c.toNat && c.toNat ≤ 13)

/-- `std::stoull`: white space, a sign, digits, then anything.  A minus negates modulo 2^64. -/
def stoull (s : List Char) : Option UInt64 :=
  let s := s.dropWhile isSpace
  let negative := s.head? == some '-'
  let s := if negative || s.head? == some '+' then s.tail else s
  let digits := s.takeWhile Char.isDigit
  if digits.isEmpty then none
  else
    let n := Nat.ofDigitChars 10 digits 0
    if n < 2 ^ 64 then some (if negative then -UInt64.ofNat n else UInt64.ofNat n) else none

/-- How a round of the loop ends. -/
inductive Round where
  | next (pos : ℕ) (ranges : List Range)
  | stop (ranges : List Range)
deriving DecidableEq, Repr

/-- The numbers between the brackets; the lengths are of type `size_t`. -/
def parseNumbers (str : List Char) (pos comma endBracket : ℕ) : Option Range := do
  let start ← stoull (← substr str (pos + 1) (sizeSub (sizeSub comma pos) 1))
  let stop ← stoull (← substr str (comma + 1) (sizeSub (sizeSub endBracket comma) 1))
  return (start, stop)

/-- The body of the loop of `ParseRanges`. -/
def parseRange (str : List Char) (pos : ℕ) (ranges : List Range) : Round :=
  if str[pos]? = some '[' then
    match find ',' str pos, find ']' str pos with
    | some comma, some endBracket =>
      match parseNumbers str pos comma endBracket with
      | some range => .next (endBracket + 1) (ranges ++ [range])
      | none => .stop []
    | _, _ => .stop ranges
  else .next (pos + 1) ranges

/-- The loop; `none` where it is not over after `fuel` rounds. -/
def parseLoop (str : List Char) : ℕ → ℕ → List Range → Option (List Range)
  | fuel, pos, ranges =>
    if pos < str.length then
      match fuel with
      | 0 => none
      | fuel + 1 =>
        match parseRange str pos ranges with
        | .next pos ranges => parseLoop str fuel pos ranges
        | .stop ranges => some ranges
    else some ranges

/-- `ParseRanges`. -/
def parseRanges (fuel : ℕ) (str : List Char) : Option (List Range) :=
  if str.length < 2 ∨ str.head? ≠ some '[' then some [] else parseLoop str fuel 1 []

/-! ### The loop ends -/

theorem le_of_find {c : Char} {str : List Char} {pos i : ℕ} (h : find c str pos = some i) : pos ≤ i := by
  obtain ⟨k, -, rfl⟩ := Option.map_eq_some_iff.mp h
  exact Nat.le_add_right pos k

/-- **A round that goes on moves ahead**: the bracket is looked for from the position on. -/
theorem pos_lt_of_parseRange {str : List Char} {pos pos' : ℕ} {ranges ranges' : List Range}
    (h : parseRange str pos ranges = .next pos' ranges') : pos < pos' := by
  rw [parseRange] at h
  split at h
  · split at h
    · rename_i comma endBracket hcomma hbracket
      split at h
      · obtain ⟨rfl, -⟩ := Round.next.inj h
        exact Nat.lt_succ_of_le (le_of_find hbracket)
      · cases h
    · cases h
  · obtain ⟨rfl, -⟩ := Round.next.inj h
    exact Nat.lt_succ_self pos

/-- As many rounds as characters are left are enough. -/
theorem parseLoop_terminates {str : List Char} {fuel pos : ℕ} (h : str.length ≤ pos + fuel) (ranges : List Range) :
    ∃ result, parseLoop str fuel pos ranges = some result := by
  induction fuel generalizing pos ranges with
  | zero => exact ⟨ranges, by rw [parseLoop, if_neg (by omega)]⟩
  | succ fuel ih =>
    rw [parseLoop]
    by_cases hpos : pos < str.length
    · rw [if_pos hpos]
      cases hround : parseRange str pos ranges with
      | next pos' ranges' =>
        have hlt := pos_lt_of_parseRange hround
        exact ih (by omega) ranges'
      | stop ranges' => exact ⟨ranges', rfl⟩
    · exact ⟨ranges, if_neg hpos⟩

/-- **`ParseRanges` ends on every text.** -/
theorem parseRanges_terminates {str : List Char} {fuel : ℕ} (h : str.length ≤ fuel) :
    ∃ ranges, parseRanges fuel str = some ranges := by
  rw [parseRanges]
  split
  · exact ⟨[], rfl⟩
  · exact parseLoop_terminates (by omega) []

/-! ### A text of ranges -/

theorem isDigit_decimalText {n : UInt64} {c : Char} (h : c ∈ decimalText n) : c.isDigit = true :=
  Nat.isDigit_of_mem_toDigits (by decide) (by decide) h

theorem decimalText_ne_nil (n : UInt64) : decimalText n ≠ [] := Nat.toDigits_ne_nil

/-- A character that is no digit does not occur in a number. -/
theorem not_mem_decimalText {c : Char} (h : c.isDigit = false) (n : UInt64) : c ∉ decimalText n := by
  intro hc
  rw [isDigit_decimalText hc] at h
  exact Bool.noConfusion h

/-- **A number is read back**: its first digit is neither white space nor a sign. -/
theorem stoull_decimalText (n : UInt64) : stoull (decimalText n) = some n := by
  obtain ⟨c, l, hcons⟩ := List.exists_cons_of_ne_nil (decimalText_ne_nil n)
  have hc : c.isDigit = true := isDigit_decimalText (by rw [hcons]; exact List.mem_cons_self)
  have hne : ∀ d : Char, d.isDigit = false → c ≠ d := fun _ hd => Digits.ne_of_isDigit hc hd
  have hspace : (decimalText n).dropWhile isSpace = decimalText n := by
    rw [hcons]
    refine List.dropWhile_cons_of_neg ?_
    have hge := (Digits.toNat_of_isDigit hc).1
    rw [isSpace, Bool.or_eq_true, beq_iff_eq, Bool.and_eq_true, decide_eq_true_eq, decide_eq_true_eq, not_or]
    exact ⟨hne ' ' (by decide), by omega⟩
  have hminus : ((decimalText n).head? == some '-') = false := by
    rw [hcons, List.head?_cons, beq_eq_false_iff_ne]
    exact fun h => hne '-' (by decide) (Option.some.inj h)
  have hplus : ((decimalText n).head? == some '+') = false := by
    rw [hcons, List.head?_cons, beq_eq_false_iff_ne]
    exact fun h => hne '+' (by decide) (Option.some.inj h)
  have hdigits : (decimalText n).takeWhile Char.isDigit = decimalText n :=
    List.takeWhile_eq_self_iff.mpr fun d hd => isDigit_decimalText hd
  have hempty : ¬(decimalText n).isEmpty = true := by
    rw [hcons]
    exact Bool.false_ne_true
  have hvalue : Nat.ofDigitChars 10 (decimalText n) 0 = n.toNat := Nat.ofDigitChars_ten_toDigits
  rw [stoull]
  simp only [hspace, hminus, hplus, Bool.or_self, Bool.false_eq_true, if_false, hdigits, if_neg hempty, hvalue,
    if_pos n.toNat_lt, UInt64.ofNat_toNat]

/-- The first `c` from a position on. -/
theorem find_eq {c : Char} {str a rest : List Char} {pos : ℕ} (h : str.drop pos = a ++ c :: rest) (hc : c ∉ a) :
    find c str pos = some (pos + a.length) := by
  have hnone : a.findIdx? (· == c) = none := by
    rw [List.findIdx?_eq_none_iff]
    intro d hd
    rw [beq_eq_false_iff_ne]
    rintro rfl
    exact hc hd
  rw [find, h, List.findIdx?_append, hnone, List.findIdx?_cons, if_pos (beq_self_eq_true c)]
  simp

/-- The text between a position and the character that ends it. -/
theorem substr_eq {c : Char} {str a rest : List Char} {pos : ℕ} (h : str.drop pos = a ++ c :: rest) :
    substr str pos a.length = some a := by
  have hlength := congrArg List.length h
  rw [List.length_drop, List.length_append, List.length_cons] at hlength
  rw [substr, if_neg (by omega), h, List.take_left]

/-- What is between two positions, without the first. -/
theorem sizeSub_between (pos k : ℕ) : sizeSub (sizeSub (pos + (1 + k)) pos) 1 = k := by
  have hinner : sizeSub (pos + (1 + k)) pos = 1 + k := by
    rw [sizeSub_of_le (Nat.le_add_right _ _)]
    omega
  rw [hinner, sizeSub_of_le (Nat.le_add_right _ _)]
  omega

/-- A position at which a text goes on. -/
theorem drop_append {str a rest : List Char} {pos : ℕ} (h : str.drop pos = a ++ rest) :
    str.drop (pos + a.length) = rest := by
  rw [← List.drop_drop, h, List.drop_left]

section

variable {str rest : List Char} {pos : ℕ} {r : Range}

/-- A range, up to its comma. -/
theorem drop_comma (h : str.drop pos = rangeText r ++ rest) :
    str.drop pos = (['['] ++ decimalText r.1) ++ ',' :: (decimalText r.2 ++ ']' :: rest) := by
  rw [h, rangeText]
  simp only [List.append_assoc, List.cons_append, List.nil_append]

/-- A range, up to its closing bracket. -/
theorem drop_bracket (h : str.drop pos = rangeText r ++ rest) :
    str.drop pos = (['['] ++ decimalText r.1 ++ [','] ++ decimalText r.2) ++ ']' :: rest := by
  rw [h, rangeText]
  simp only [List.append_assoc, List.cons_append, List.nil_append]

theorem find_comma (h : str.drop pos = rangeText r ++ rest) :
    find ',' str pos = some (pos + (1 + (decimalText r.1).length)) := by
  rw [find_eq (drop_comma h), List.length_append, List.length_singleton]
  rw [List.mem_append, List.mem_singleton, not_or]
  exact ⟨by decide, not_mem_decimalText (by decide) r.1⟩

theorem find_bracket (h : str.drop pos = rangeText r ++ rest) :
    find ']' str pos = some (pos + (1 + (decimalText r.1).length) + (1 + (decimalText r.2).length)) := by
  rw [find_eq (drop_bracket h)]
  · simp only [List.length_append, List.length_singleton, Nat.add_assoc]
  · simp only [List.mem_append, List.mem_singleton, not_or]
    exact ⟨⟨⟨by decide, not_mem_decimalText (by decide) r.1⟩, by decide⟩, not_mem_decimalText (by decide) r.2⟩

/-- **The numbers of a range** are those between the places that are found. -/
theorem parseNumbers_rangeText (h : str.drop pos = rangeText r ++ rest) :
    parseNumbers str pos (pos + (1 + (decimalText r.1).length))
      (pos + (1 + (decimalText r.1).length) + (1 + (decimalText r.2).length)) = some r := by
  have hfirst : str.drop (pos + 1) = decimalText r.1 ++ ',' :: (decimalText r.2 ++ ']' :: rest) := by
    have hopen := drop_comma h
    rw [List.append_assoc] at hopen
    exact drop_append hopen
  have hsecond : str.drop (pos + (1 + (decimalText r.1).length) + 1) = decimalText r.2 ++ ']' :: rest := by
    have hcomma := drop_bracket h
    rw [List.append_assoc] at hcomma
    have hnext := drop_append hcomma
    rwa [List.length_append, List.length_append, List.length_singleton, List.length_singleton, ← Nat.add_assoc] at hnext
  rw [parseNumbers, sizeSub_between, sizeSub_between, substr_eq hfirst, substr_eq hsecond]
  show (stoull (decimalText r.1)).bind
    (fun start => (stoull (decimalText r.2)).bind fun stop => some (start, stop)) = _
  rw [stoull_decimalText, stoull_decimalText]
  rfl

/-- **A round reads the range at its position**, and ends behind it. -/
theorem parseRange_rangeText (h : str.drop pos = rangeText r ++ rest) (ranges : List Range) :
    parseRange str pos ranges = .next (pos + (rangeText r).length) (ranges ++ [r]) := by
  have hopen : str[pos]? = some '[' := by
    rw [← List.head?_drop, h]
    rfl
  have hend : pos + (1 + (decimalText r.1).length) + (1 + (decimalText r.2).length) + 1 =
      pos + (rangeText r).length := by
    simp only [rangeText, List.length_append, List.length_singleton]
    omega
  rw [parseRange, if_pos hopen, find_comma h, find_bracket h]
  simp only [parseNumbers_rangeText h, hend]

end

/-- A round on another character than an opening bracket moves by one. -/
theorem parseRange_skip {str rest : List Char} {pos : ℕ} {c : Char} (h : str.drop pos = c :: rest) (hc : c ≠ '[')
    (ranges : List Range) : parseRange str pos ranges = .next (pos + 1) ranges := by
  have hhead : ¬str[pos]? = some '[' := by
    rw [← List.head?_drop, h]
    exact fun heq => hc (Option.some.inj heq)
  rw [parseRange, if_neg hhead]

theorem parseLoop_next {str : List Char} {fuel pos pos' : ℕ} {ranges ranges' : List Range} (hpos : pos < str.length)
    (h : parseRange str pos ranges = .next pos' ranges') :
    parseLoop str (fuel + 1) pos ranges = parseLoop str fuel pos' ranges' := by
  rw [parseLoop, if_pos hpos]
  simp only [h]

theorem parseLoop_end {str : List Char} {fuel pos : ℕ} (h : str.length ≤ pos) (ranges : List Range) :
    parseLoop str fuel pos ranges = some ranges := by
  cases fuel with
  | zero => rw [parseLoop, if_neg (Nat.not_lt.mpr h)]
  | succ fuel => rw [parseLoop, if_neg (Nat.not_lt.mpr h)]

/-! ### The round trip -/

/-- What is written behind a range. -/
def behind (l : List Range) : List Char := l.flatMap (fun r => ',' :: rangeText r) ++ [']']

theorem lt_length_of_drop {str rest : List Char} {pos : ℕ} {c : Char} (h : str.drop pos = c :: rest) :
    pos < str.length := by
  have hdrop := congrArg List.length h
  rw [List.length_drop, List.length_cons] at hdrop
  omega

/-- **The loop behind a range** reads the ranges that follow; by induction on them. -/
theorem parseLoop_behind {str : List Char} (l : List Range) {fuel pos : ℕ} (h : str.drop pos = behind l)
    (hfuel : str.length ≤ pos + fuel) (ranges : List Range) :
    parseLoop str fuel pos ranges = some (ranges ++ l) := by
  induction l generalizing fuel pos ranges with
  | nil =>
    have hpos := lt_length_of_drop h
    have hend : str.length ≤ pos + 1 := List.drop_eq_nil_iff.mp (drop_append (a := [']']) (h.trans rfl))
    obtain ⟨fuel, rfl⟩ : ∃ k, fuel = k + 1 := ⟨fuel - 1, by omega⟩
    rw [parseLoop_next hpos (parseRange_skip h (by decide) ranges), parseLoop_end hend, List.append_nil]
  | cons r l ih =>
    have hcomma : str.drop pos = ',' :: (rangeText r ++ behind l) := by
      rw [h, behind, List.flatMap_cons, List.cons_append, List.cons_append, List.append_assoc]
      rfl
    have hrange : str.drop (pos + 1) = rangeText r ++ behind l := drop_append (a := [',']) hcomma
    have hrest : str.drop (pos + 1 + (rangeText r).length) = behind l := drop_append hrange
    have hpos := lt_length_of_drop hcomma
    have hopen : pos + 1 < str.length := lt_length_of_drop hrange
    obtain ⟨fuel, rfl⟩ : ∃ k, fuel = k + 2 := ⟨fuel - 2, by omega⟩
    rw [parseLoop_next hpos (parseRange_skip hcomma (by decide) ranges),
      parseLoop_next hopen (parseRange_rangeText hrange ranges), ih hrest]
    · rw [List.append_assoc]
      rfl
    · have hlength : 0 < (rangeText r).length := Nat.succ_pos _
      omega

/-- The loop of `StoreProgress` behind its first round. -/
theorem foldl_appendRange (l : List Range) (out : List Char) (i : ℕ) :
    (l.foldl appendRange (out, i + 1)).1 = out ++ l.flatMap fun r => ',' :: rangeText r := by
  induction l generalizing out i with
  | nil => exact (List.append_nil out).symm
  | cons r l ih =>
    have hround : appendRange (out, i + 1) r = (out ++ [','] ++ rangeText r, i + 1 + 1) := by
      rw [appendRange, if_pos (Nat.succ_pos i)]
    rw [List.foldl_cons, hround, ih, List.flatMap_cons]
    simp only [List.append_assoc, List.cons_append, List.nil_append]

theorem rangesText_cons (r : Range) (l : List Range) : rangesText (r :: l) = '[' :: (rangeText r ++ behind l) := by
  have hround : appendRange (['['], 0) r = (['['] ++ rangeText r, 0 + 1) := rfl
  rw [rangesText, List.foldl_cons, hround, foldl_appendRange, behind]
  simp only [List.append_assoc, List.cons_append, List.nil_append]

/-- **The text of a list is read back**, however long the list is. -/
theorem parseRanges_rangesText {ranges : List Range} {fuel : ℕ} (h : (rangesText ranges).length ≤ fuel) :
    parseRanges fuel (rangesText ranges) = some ranges := by
  cases ranges with
  | nil =>
    have hsize : ¬((rangesText []).length < 2 ∨ (rangesText []).head? ≠ some '[') := by decide
    rw [parseRanges, if_neg hsize, parseLoop_behind [] rfl (by omega)]
    rfl
  | cons r l =>
    have htext := rangesText_cons r l
    have hrange : (rangesText (r :: l)).drop 1 = rangeText r ++ behind l := by
      rw [htext]
      rfl
    have hrest := drop_append hrange
    have hpos : 1 < (rangesText (r :: l)).length := lt_length_of_drop hrange
    have hsize : ¬((rangesText (r :: l)).length < 2 ∨ (rangesText (r :: l)).head? ≠ some '[') := by
      rw [not_or, not_not]
      exact ⟨by omega, by rw [htext]; rfl⟩
    obtain ⟨fuel, rfl⟩ : ∃ k, fuel = k + 1 := ⟨fuel - 1, by omega⟩
    rw [parseRanges, if_neg hsize, parseLoop_next hpos (parseRange_rangeText hrange []),
      parseLoop_behind l hrest (by omega)]
    rfl

end DbnPipe.Storage
