import DbnPipe.Library.Delimited
import Mathlib.Tactic.Common

/-!
# Percent-encoding, and lists of names and values

Bytes written so that **none of them can be taken for a separator**.

* `hexDigit`, `hexValue` — upper-case hexadecimal digits, each with its value;
* `encode keep` — bytes that are kept, the others as `%XX`; `decode` — the way back;
* `decode_encode` — **the round trip**, for all bytes, if `%` is not kept;
* `decode_eq_self` — a text that decoding does not shorten is left as it is;
* `mem_encode`, `length_encode` — what can stand in an encoded text, and its length;
* `pairs`, `parsePairs` — `name=value` pairs joined by `&`, with their round trip `parsePairs_pairs`;
* `parseQuery`, `decodeForm` — the target of a request, cut at its `?`, and form data, where `+` is a space.
-/

namespace DbnPipe.PercentEncoding

/-! ### Hexadecimal digits -/

/-- The digit of a number below 16. -/
def hexDigit (n : Nat) : UInt8 := if n < 10 then UInt8.ofNat (48 + n) else UInt8.ofNat (55 + n)

/-- The value of a digit, of either case. -/
def hexValue (b : UInt8) : Option Nat :=
  if 48 ≤ b ∧ b ≤ 57 then some (b.toNat - 48)
  else if 65 ≤ b ∧ b ≤ 70 then some (b.toNat - 55)
  else if 97 ≤ b ∧ b ≤ 102 then some (b.toNat - 87)
  else none

theorem hexValue_hexDigit {n : Nat} (h : n < 16) : hexValue (hexDigit n) = some n := by
  have hall : ∀ i : Fin 16, hexValue (hexDigit i) = some (i : Nat) := by decide
  exact hall ⟨n, h⟩

/-! ### Bytes -/

/-- `%XX`. -/
def escape (b : UInt8) : List UInt8 := [37, hexDigit (b.toNat / 16), hexDigit (b.toNat % 16)]

variable (keep : UInt8 → Bool)

/-- The bytes that are kept, and the others escaped. -/
def encode (l : List UInt8) : List UInt8 := l.flatMap fun b => if keep b then [b] else escape b

/-- The way back; a `%` without two digits stands for itself. -/
def decode : List UInt8 → List UInt8
  | [] => []
  | [b] => [b]
  | [b, c] => [b, c]
  | b :: c :: d :: rest =>
    if b = 37 then
      match hexValue c, hexValue d with
      | some x, some y => UInt8.ofNat (16 * x + y) :: decode rest
      | _, _ => b :: decode (c :: d :: rest)
    else b :: decode (c :: d :: rest)

/-- The length of an encoded text: two bytes more for every byte that is not kept. -/
theorem length_encode (l : List UInt8) : (encode keep l).length = l.length + 2 * l.countP fun b => !keep b := by
  induction l with
  | nil => rfl
  | cons b l ih =>
    rw [encode, List.flatMap_cons, List.length_append, List.length_cons, List.countP_cons]
    rw [encode] at ih
    rw [ih]
    cases hb : keep b with
    | true =>
      simp only [if_true, List.length_singleton, Bool.not_true, Bool.false_eq_true, if_false]
      omega
    | false =>
      simp only [Bool.false_eq_true, if_false, escape, List.length_cons, List.length_nil, Bool.not_false, if_true]
      omega

theorem decode_cons_of_ne {b : UInt8} (h : b ≠ 37) (l : List UInt8) : decode (b :: l) = b :: decode l := by
  match l with
  | [] => rfl
  | [_] => rfl
  | c :: d :: rest => rw [decode, if_neg h]

theorem decode_escape (b : UInt8) (l : List UInt8) : decode (escape b ++ l) = b :: decode l := by
  have hb : b.toNat < 256 := b.toNat_lt
  have hhigh : hexValue (hexDigit (b.toNat / 16)) = some (b.toNat / 16) := hexValue_hexDigit (by omega)
  have hlow : hexValue (hexDigit (b.toNat % 16)) = some (b.toNat % 16) := hexValue_hexDigit (by omega)
  show decode (37 :: hexDigit (b.toNat / 16) :: hexDigit (b.toNat % 16) :: l) = _
  rw [decode, if_pos rfl, hhigh, hlow]
  dsimp only
  rw [Nat.div_add_mod, UInt8.ofNat_toNat]

/-- **The round trip**, with whatever follows. -/
theorem decode_encode_append (h : keep 37 = false) (l rest : List UInt8) :
    decode (encode keep l ++ rest) = l ++ decode rest := by
  induction l with
  | nil => rfl
  | cons b l ih =>
    rw [encode, List.flatMap_cons, List.append_assoc]
    split
    · rename_i hkeep
      have hne : b ≠ 37 := by
        rintro rfl
        rw [h] at hkeep
        exact Bool.false_ne_true hkeep
      rw [List.singleton_append, decode_cons_of_ne hne]
      exact congrArg (b :: ·) ih
    · rw [decode_escape]
      exact congrArg (b :: ·) ih

theorem decode_encode (h : keep 37 = false) (l : List UInt8) : decode (encode keep l) = l := by
  have hround := decode_encode_append keep h l []
  rwa [List.append_nil, decode, List.append_nil] at hround

/-- Decoding makes no text longer. -/
theorem length_decode_le (l : List UInt8) : (decode l).length ≤ l.length := by
  induction l using decode.induct with
  | case1 => exact Nat.le_refl 0
  | case2 b => exact Nat.le_refl 1
  | case3 b c => exact Nat.le_refl 2
  | case4 c d rest x y hx hy ih =>
    rw [decode, if_pos rfl, hx, hy]
    simp only [List.length_cons]
    omega
  | case5 c d rest hno ih =>
    rw [decode, if_pos rfl]
    split
    · rename_i x y hx hy
      exact absurd hy (hno x y hx)
    · exact Nat.succ_le_succ ih
  | case6 b c d rest hb ih =>
    rw [decode, if_neg hb]
    exact Nat.succ_le_succ ih

/-- A text that keeps its length is not changed. -/
theorem decode_eq_self {l : List UInt8} (h : l.length ≤ (decode l).length) : decode l = l := by
  induction l using decode.induct with
  | case1 => rfl
  | case2 b => rfl
  | case3 b c => rfl
  | case4 c d rest x y hx hy ih =>
    have hrest := length_decode_le rest
    rw [decode, if_pos rfl, hx, hy] at h
    simp only [List.length_cons] at h
    omega
  | case5 c d rest hno ih =>
    rw [decode, if_pos rfl] at h ⊢
    split at h
    · rename_i x y hx hy
      exact absurd hy (hno x y hx)
    · rw [ih (Nat.le_of_succ_le_succ h)]
  | case6 b c d rest hb ih =>
    rw [decode, if_neg hb] at h ⊢
    rw [ih (Nat.le_of_succ_le_succ h)]

theorem length_map_decode_le (ls : List (List UInt8)) : (ls.map decode).flatten.length ≤ ls.flatten.length := by
  induction ls with
  | nil => exact Nat.le_refl 0
  | cons l ls ih =>
    have := length_decode_le l
    simp only [List.map_cons, List.flatten_cons, List.length_append]
    omega

/-- The same for several texts, by the length of all of them. -/
theorem map_decode_eq_self {ls : List (List UInt8)} (h : ls.flatten.length ≤ (ls.map decode).flatten.length) :
    ls.map decode = ls := by
  induction ls with
  | nil => rfl
  | cons l ls ih =>
    have hle := length_map_decode_le ls
    have hl := length_decode_le l
    simp only [List.map_cons, List.flatten_cons, List.length_append] at h
    rw [List.map_cons, decode_eq_self (by omega), ih (by omega)]

/-- **What can stand in an encoded text**: kept bytes, `%`, and digits. -/
theorem mem_encode {b : UInt8} {l : List UInt8} (h : b ∈ encode keep l) :
    keep b = true ∨ b = 37 ∨ ∃ n < 16, b = hexDigit n := by
  obtain ⟨c, -, hb⟩ := List.mem_flatMap.mp h
  have hc : c.toNat < 256 := c.toNat_lt
  split at hb
  · obtain rfl := List.mem_singleton.mp hb
    exact .inl ‹_›
  · rcases List.mem_cons.mp hb with rfl | hb
    · exact .inr (.inl rfl)
    · rcases List.mem_pair.mp hb with rfl | rfl
      · exact .inr (.inr ⟨_, by omega, rfl⟩)
      · exact .inr (.inr ⟨_, by omega, rfl⟩)

/-- A byte that is neither kept nor `%` nor a digit does not occur. -/
theorem not_mem_encode {b : UInt8} (hkeep : keep b = false) (hb : b ≠ 37) (hdigit : ∀ n < 16, b ≠ hexDigit n)
    (l : List UInt8) : b ∉ encode keep l := by
  intro h
  rcases mem_encode keep h with h | h | ⟨n, hn, h⟩
  · rw [hkeep] at h
    exact Bool.false_ne_true h
  · exact hb h
  · exact hdigit n hn h

/-- A separator of pairs cannot be taken for a byte of an encoded text. -/
structure Separates (b : UInt8) : Prop where
  keep : keep b = false
  percent : b ≠ 37
  digit : ∀ n < 16, b ≠ hexDigit n

theorem Separates.not_mem {b : UInt8} (h : Separates keep b) (l : List UInt8) : b ∉ encode keep l :=
  not_mem_encode keep h.keep h.percent h.digit l

/-! ### Pairs of names and values -/

/-- `name=value` pairs, joined by `&`. -/
def pairs (ps : List (List UInt8 × List UInt8)) : List UInt8 :=
  [38].intercalate (ps.map fun p => encode keep p.1 ++ 61 :: encode keep p.2)

/-- The first pair, and every other behind its `&`. -/
theorem pairs_cons (p : List UInt8 × List UInt8) (ps : List (List UInt8 × List UInt8)) :
    pairs keep (p :: ps) =
      encode keep p.1 ++ 61 :: encode keep p.2 ++
        ps.flatMap fun q => 38 :: (encode keep q.1 ++ 61 :: encode keep q.2) := by
  induction ps generalizing p with
  | nil => rw [pairs, List.map_cons, List.map_nil, List.intercalate_singleton, List.flatMap_nil, List.append_nil]
  | cons q ps ih =>
    have hstep : pairs keep (p :: q :: ps) = encode keep p.1 ++ 61 :: encode keep p.2 ++ 38 :: pairs keep (q :: ps) := by
      rw [pairs, pairs, List.map_cons, List.map_cons, List.intercalate_cons_cons, List.append_assoc,
        List.singleton_append]
    rw [hstep, ih, List.flatMap_cons]
    rfl

/-- A pair, cut at its first `=`. -/
def parsePair (dec : List UInt8 → List UInt8) (text : List UInt8) : List UInt8 × List UInt8 :=
  match Delimited.breakAt 61 text with
  | some p => (dec p.1, dec p.2)
  | none => (dec text, [])

/-- Pairs, cut at every `&`. -/
def parsePairs (dec : List UInt8 → List UInt8) (text : List UInt8) : List (List UInt8 × List UInt8) :=
  (text.splitOn 38).map (parsePair dec)

theorem parsePair_pair {dec : List UInt8 → List UInt8} (hequals : Separates keep 61)
    (hdec : ∀ l, dec (encode keep l) = l) (p : List UInt8 × List UInt8) :
    parsePair dec (encode keep p.1 ++ 61 :: encode keep p.2) = p := by
  rw [parsePair, Delimited.breakAt_append (hequals.not_mem keep p.1)]
  dsimp only
  rw [hdec, hdec]

/-- **The round trip of a list of pairs**; the empty list is written as the pair of empty texts would be cut. -/
theorem parsePairs_pairs {dec : List UInt8 → List UInt8} (hamp : Separates keep 38) (hequals : Separates keep 61)
    (hdec : ∀ l, dec (encode keep l) = l) {ps : List (List UInt8 × List UInt8)} (hne : ps ≠ []) :
    parsePairs dec (pairs keep ps) = ps := by
  have hapart : ∀ t ∈ ps.map fun p => encode keep p.1 ++ 61 :: encode keep p.2, (38 : UInt8) ∉ t := by
    intro t ht
    obtain ⟨p, -, rfl⟩ := List.mem_map.mp ht
    simp only [List.mem_append, List.mem_cons, not_or]
    exact ⟨hamp.not_mem keep p.1, by decide, hamp.not_mem keep p.2⟩
  rw [parsePairs, pairs, List.splitOn_intercalate 38 hapart fun hnil => hne (List.map_eq_nil_iff.mp hnil), List.map_map]
  exact (List.map_congr_left fun p _ => parsePair_pair keep hequals hdec p).trans (List.map_id ps)

/-- What stands in pairs: the two separators, and what can stand in encoded texts. -/
theorem not_mem_pairs {b : UInt8} (h : Separates keep b) (hamp : b ≠ 38) (hequals : b ≠ 61)
    (ps : List (List UInt8 × List UInt8)) : b ∉ pairs keep ps := by
  have hpair : ∀ p : List UInt8 × List UInt8, b ∉ encode keep p.1 ++ 61 :: encode keep p.2 := by
    intro p
    simp only [List.mem_append, List.mem_cons, not_or]
    exact ⟨h.not_mem keep p.1, hequals, h.not_mem keep p.2⟩
  induction ps with
  | nil => exact List.not_mem_nil
  | cons p ps ih =>
    cases ps with
    | nil =>
      rw [pairs, List.map_cons, List.map_nil, List.intercalate_singleton]
      exact hpair p
    | cons q ps =>
      rw [pairs, List.map_cons, List.map_cons, List.intercalate_cons_cons]
      intro hmem
      rcases List.mem_append.mp hmem with hmem | hmem
      · rcases List.mem_append.mp hmem with hmem | hmem
        · exact hpair p hmem
        · exact hamp (List.mem_singleton.mp hmem)
      · exact ih hmem

/-! ### Targets and forms -/

/-- A target: its path, and the pairs behind its `?`, if there is one. -/
def parseQuery (target : List UInt8) : List UInt8 × List (List UInt8 × List UInt8) :=
  match Delimited.breakAt 63 target with
  | some p => (p.1, parsePairs decode p.2)
  | none => (target, [])

/-- The path of a target starts it, and has no `?`. -/
theorem parseQuery_path (target : List UInt8) :
    (∃ z, target = (parseQuery target).1 ++ z) ∧ 63 ∉ (parseQuery target).1 := by
  rw [parseQuery]
  cases h : Delimited.breakAt 63 target with
  | none => exact ⟨⟨[], (List.append_nil _).symm⟩, Delimited.not_mem_of_breakAt h⟩
  | some p =>
    obtain ⟨htarget, hp⟩ := Delimited.breakAt_eq_some (x := p.1) (y := p.2) h
    exact ⟨⟨_, htarget⟩, hp⟩

/-- The decoding of form data: `+` is a space. -/
def decodeForm (l : List UInt8) : List UInt8 := decode (l.map fun b => if b = 43 then 32 else b)

theorem decodeForm_encode (h : keep 37 = false) (hplus : Separates keep 43) (l : List UInt8) :
    decodeForm (encode keep l) = l := by
  have hsame : (encode keep l).map (fun b => if b = 43 then 32 else b) = encode keep l := by
    refine (List.map_congr_left fun b hb => ?_).trans (List.map_id _)
    have hne : b ≠ 43 := by
      rintro rfl
      exact hplus.not_mem keep l hb
    exact if_neg hne
  rw [decodeForm, hsame, decode_encode keep h]

end DbnPipe.PercentEncoding
