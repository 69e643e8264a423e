import Mathlib.Data.List.Basic
import Mathlib.Tactic.Common

/-!
# Base64

Three bytes as four digits of six bits, with `=` where bytes are missing at the end.

* `digit`, `value` — the alphabet, each digit with its value;
* `encode` — three bytes at a time; `decode` — four digits at a time, where the text is one;
* `decode_encode` — **the round trip**, for all bytes;
* `mem_encode`, `encode_padded`, `length_encode` — what can stand in an encoded text, where, and its length.
-/

namespace DbnPipe.Base64

/-- `A` to `Z`, `a` to `z`, `0` to `9`, `+` and `/`. -/
def digit (n : Nat) : UInt8 :=
  if n < 26 then UInt8.ofNat (65 + n)
  else if n < 52 then UInt8.ofNat (71 + n)
  else if n < 62 then UInt8.ofNat (n - 4)
  else if n = 62 then 43
  else 47

/-- The value of a digit. -/
def value (b : UInt8) : Option Nat :=
  if 65 ≤ b ∧ b ≤ 90 then some (b.toNat - 65)
  else if 97 ≤ b ∧ b ≤ 122 then some (b.toNat - 71)
  else if 48 ≤ b ∧ b ≤ 57 then some (b.toNat + 4)
  else if b = 43 then some 62
  else if b = 47 then some 63
  else none

theorem value_digit {n : Nat} (h : n < 64) : value (digit n) = some n := by
  have hall : ∀ i : Fin 64, value (digit i) = some (i : Nat) := by decide
  exact hall ⟨n, h⟩

theorem digit_ne {n : Nat} (h : n < 64) : digit n ≠ 61 := by
  have hall : ∀ i : Fin 64, digit i ≠ 61 := by decide
  exact hall ⟨n, h⟩

/-- Three bytes as a number. -/
def triple (a b c : UInt8) : Nat := a.toNat * 65536 + b.toNat * 256 + c.toNat

theorem triple_lt (a b c : UInt8) : triple a b c < 16777216 := by
  have ha := a.toNat_lt
  have hb := b.toNat_lt
  have hc := c.toNat_lt
  rw [triple]
  omega

/-- The four digits of a number. -/
def digits (n : Nat) : List UInt8 :=
  [digit (n / 262144 % 64), digit (n / 4096 % 64), digit (n / 64 % 64), digit (n % 64)]

/-- The digits of a text. -/
def encode : List UInt8 → List UInt8
  | a :: b :: c :: rest => digits (triple a b c) ++ encode rest
  | [a, b] => (digits (triple a b 0)).take 3 ++ [61]
  | [a] => (digits (triple a 0 0)).take 2 ++ [61, 61]
  | [] => []

/-- The number that four digits make. -/
def quad (p q r s : UInt8) : Option Nat :=
  (value p).bind fun p => (value q).bind fun q => (value r).bind fun r =>
    (value s).map (p * 262144 + q * 4096 + r * 64 + ·)

/-- Padding is at the end only; the bits that it leaves over are not asked about. -/
def decode : List UInt8 → Option (List UInt8)
  | [] => some []
  | p :: q :: r :: s :: rest =>
    if s = 61 ∧ rest = [] then
      if r = 61 then (quad p q 65 65).map fun n => [UInt8.ofNat (n / 65536)]
      else (quad p q r 65).map fun n => [UInt8.ofNat (n / 65536), UInt8.ofNat (n / 256)]
    else
      (quad p q r s).bind fun n =>
        (decode rest).map fun l => UInt8.ofNat (n / 65536) :: UInt8.ofNat (n / 256) :: UInt8.ofNat n :: l
  | _ => none

theorem quad_digits {n : Nat} (h : n < 16777216) :
    quad (digit (n / 262144 % 64)) (digit (n / 4096 % 64)) (digit (n / 64 % 64)) (digit (n % 64)) = some n := by
  have hsum : n / 262144 % 64 * 262144 + n / 4096 % 64 * 4096 + n / 64 % 64 * 64 + n % 64 = n := by omega
  rw [quad, value_digit (Nat.mod_lt _ (by decide)), value_digit (Nat.mod_lt _ (by decide)),
    value_digit (Nat.mod_lt _ (by decide)), value_digit (Nat.mod_lt _ (by decide))]
  exact congrArg some hsum

/-- The byte that a number ends with. -/
theorem ofNat_eq {b : UInt8} {n : Nat} (h : n % 256 = b.toNat) : UInt8.ofNat n = b := by
  rw [← UInt8.toNat_inj, UInt8.toNat_ofNat', ← h]

/-- The bytes of a number that three bytes make. -/
theorem triple_bytes (a b c : UInt8) :
    UInt8.ofNat (triple a b c / 65536) = a ∧ UInt8.ofNat (triple a b c / 256) = b ∧ UInt8.ofNat (triple a b c) = c := by
  have ha := a.toNat_lt
  have hb := b.toNat_lt
  have hc := c.toNat_lt
  rw [triple]
  exact ⟨ofNat_eq (by omega), ofNat_eq (by omega), ofNat_eq (by omega)⟩

/-- The last digit of a number without a third byte. -/
theorem digit_last (a b : UInt8) : digit (triple a b 0 % 64) = 65 := by
  have hlast : triple a b 0 % 64 = 0 := by
    show (a.toNat * 65536 + b.toNat * 256 + 0) % 64 = 0
    omega
  rw [hlast]
  rfl

/-- The third digit of a number without a second byte. -/
theorem digit_third (a : UInt8) : digit (triple a 0 0 / 64 % 64) = 65 := by
  have hthird : triple a 0 0 / 64 % 64 = 0 := by
    show (a.toNat * 65536 + 0 * 256 + 0) / 64 % 64 = 0
    omega
  rw [hthird]
  rfl

/-- **The round trip.** -/
theorem decode_encode (l : List UInt8) : decode (encode l) = some l := by
  induction l using encode.induct with
  | case1 a b c rest ih =>
    have hdigit : ¬(digit (triple a b c % 64) = 61 ∧ encode rest = []) := fun h =>
      digit_ne (Nat.mod_lt _ (by decide)) h.1
    obtain ⟨hfirst, hsecond, hthird⟩ := triple_bytes a b c
    rw [encode, digits, List.cons_append, List.cons_append, List.cons_append, List.cons_append, List.nil_append, decode,
      if_neg hdigit, quad_digits (triple_lt a b c), Option.bind_some, ih, Option.map_some, hfirst, hsecond, hthird]
  | case2 a b =>
    have hquad := quad_digits (triple_lt a b 0)
    rw [digit_last] at hquad
    obtain ⟨hfirst, hsecond, -⟩ := triple_bytes a b 0
    show decode [_, _, _, 61] = _
    rw [decode, if_pos ⟨rfl, rfl⟩, if_neg (digit_ne (Nat.mod_lt _ (by decide))), hquad, Option.map_some, hfirst,
      hsecond]
  | case3 a =>
    have hquad := quad_digits (triple_lt a 0 0)
    rw [digit_last, digit_third] at hquad
    obtain ⟨hfirst, -, -⟩ := triple_bytes a 0 0
    show decode [_, _, 61, 61] = _
    rw [decode, if_pos ⟨rfl, rfl⟩, if_pos rfl, hquad, Option.map_some, hfirst]
  | case4 => rfl

/-- The length of an encoded text: four digits for three bytes, or what is left of three. -/
theorem length_encode (l : List UInt8) : (encode l).length = 4 * ((l.length + 2) / 3) := by
  induction l using encode.induct with
  | case1 a b c rest ih =>
    rw [encode, List.length_append, ih]
    simp only [digits, List.length_cons, List.length_nil]
    omega
  | case2 a b => simp [encode, digits]
  | case3 a => simp [encode, digits]
  | case4 => rfl

theorem mem_digits {b : UInt8} {n : Nat} (h : b ∈ digits n) : ∃ k < 64, b = digit k := by
  simp only [digits, List.mem_cons, List.not_mem_nil, or_false] at h
  rcases h with h | h | h | h
  all_goals exact ⟨_, Nat.mod_lt _ (by decide), h⟩

/-- What can stand in an encoded text: digits and padding. -/
theorem mem_encode {b : UInt8} {l : List UInt8} (h : b ∈ encode l) : b = 61 ∨ ∃ n < 64, b = digit n := by
  induction l using encode.induct with
  | case1 a b' c rest ih =>
    rw [encode] at h
    rcases List.mem_append.mp h with h | h
    · exact .inr (mem_digits h)
    · exact ih h
  | case2 a b' =>
    rw [encode] at h
    rcases List.mem_append.mp h with h | h
    · exact .inr (mem_digits (List.mem_of_mem_take h))
    · exact .inl (List.mem_singleton.mp h)
  | case3 a =>
    rw [encode] at h
    rcases List.mem_append.mp h with h | h
    · exact .inr (mem_digits (List.mem_of_mem_take h))
    · rcases List.mem_pair.mp h with h | h <;> exact .inl h
  | case4 => exact absurd h List.not_mem_nil

/-- An encoded text: digits, then as much padding as bytes are missing, two at most. -/
theorem encode_padded (l : List UInt8) :
    ∃ body, encode l = body ++ List.replicate ((3 - l.length % 3) % 3) 61 ∧ ∀ b ∈ body, ∃ k < 64, b = digit k := by
  induction l using encode.induct with
  | case1 a b c rest ih =>
    obtain ⟨body, hencode, hbody⟩ := ih
    have hlength : (a :: b :: c :: rest).length % 3 = rest.length % 3 := by
      simp only [List.length_cons]
      omega
    refine ⟨digits (triple a b c) ++ body, ?_, fun b' hb => ?_⟩
    · rw [encode, hencode, hlength, List.append_assoc]
    · rcases List.mem_append.mp hb with hb | hb
      · exact mem_digits hb
      · exact hbody b' hb
  | case2 a b => exact ⟨(digits (triple a b 0)).take 3, rfl, fun b' hb => mem_digits (List.mem_of_mem_take hb)⟩
  | case3 a => exact ⟨(digits (triple a 0 0)).take 2, rfl, fun b' hb => mem_digits (List.mem_of_mem_take hb)⟩
  | case4 => exact ⟨[], rfl, fun b' hb => absurd hb List.not_mem_nil⟩

/-- A byte that is neither a digit nor padding does not occur. -/
theorem not_mem_encode {b : UInt8} (hpad : b ≠ 61) (hdigit : ∀ n < 64, b ≠ digit n) (l : List UInt8) :
    b ∉ encode l := by
  intro h
  rcases mem_encode h with h | ⟨n, hn, h⟩
  · exact hpad h
  · exact hdigit n hn h

end DbnPipe.Base64
