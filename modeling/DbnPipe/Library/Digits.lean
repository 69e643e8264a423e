import Mathlib.Data.Nat.Notation
import Mathlib.Data.List.Lex
import Mathlib.Order.Basic
import Mathlib.Data.Char
import Mathlib.Algebra.Group.Nat.Defs
import Mathlib.Order.Lattice

/-!
# Decimal digits of a fixed width, in lexicographic order

Numbers written with leading zeros to one width compare as texts the way they compare as numbers.

* `append_lt_append` — texts with heads of one length: the heads decide, then the tails;
* `digits` — the last `w` decimal digits, and `zeroPadded` — **the digits of a number, filled up to `w`**;
* `zeroPadded_eq` — the two agree on numbers of at most `w` digits;
* `digits_lt_iff` — **the order of texts is that of numbers**;
* `toNat_of_isDigit`, `ne_of_isDigit` — which characters are digits.
-/

namespace DbnPipe.Digits

variable {α : Type*} [LinearOrder α]

/-- Heads of one length decide, then the tails. -/
theorem append_lt_append {a b : List α} (h : a.length = b.length) (x y : List α) :
    a ++ x < b ++ y ↔ a < b ∨ a = b ∧ x < y := by
  induction a generalizing b with
  | nil =>
      obtain rfl := List.length_eq_zero_iff.mp h.symm
      simp
  | cons c a ih =>
      cases b with
      | nil => simp at h
      | cons d b =>
          rw [List.length_cons, List.length_cons, Nat.add_right_cancel_iff] at h
          rw [List.cons_append, List.cons_append, List.cons_lt_cons_iff, List.cons_lt_cons_iff, ih h, List.cons.injEq]
          tauto

/-- The last `w` decimal digits of `n`. -/
def digits : ℕ → ℕ → List Char
  | 0, _ => []
  | w + 1, n => digits w (n / 10) ++ [(n % 10).digitChar]

@[simp] theorem length_digits (w n : ℕ) : (digits w n).length = w := by
  induction w generalizing n with
  | zero => rfl
  | succ w ih => rw [digits, List.length_append, ih, List.length_singleton]

theorem digits_zero (w : ℕ) : digits w 0 = List.replicate w '0' := by
  induction w with
  | zero => rfl
  | succ w ih =>
      rw [digits, Nat.zero_div, ih, List.replicate_succ']
      rfl

/-- The decimal digits of `n`, with zeros in front up to `w` characters. -/
def zeroPadded (w n : ℕ) : List Char :=
  List.replicate (w - (Nat.toDigits 10 n).length) '0' ++ Nat.toDigits 10 n

/-- A number that fits in `w` digits is padded to them. -/
theorem zeroPadded_eq : ∀ {w n : ℕ}, n < 10 ^ (w + 1) → zeroPadded (w + 1) n = digits (w + 1) n
  | 0, n, h => by
      rw [zeroPadded, Nat.toDigits_of_lt_base (by omega), digits, digits, Nat.mod_eq_of_lt (by omega)]
      rfl
  | w + 1, n, h => by
      rw [digits]
      by_cases hn : n < 10
      · rw [zeroPadded, Nat.toDigits_of_lt_base hn, Nat.div_eq_of_lt hn, digits_zero, Nat.mod_eq_of_lt hn]
        rfl
      · have hsmall : n / 10 < 10 ^ (w + 1) := by
          rw [Nat.div_lt_iff_lt_mul (by omega)]
          exact h
        rw [← zeroPadded_eq hsmall, zeroPadded, zeroPadded, Nat.toDigits_of_base_le (by omega) (by omega),
          List.length_append, List.length_singleton, ← List.append_assoc, Nat.add_sub_add_right]

theorem digitChar_lt {a b : ℕ} (ha : a < 10) (hb : b < 10) : a.digitChar < b.digitChar ↔ a < b := by
  have h : ∀ i : Fin 10, ∀ j : Fin 10, (i : ℕ).digitChar < (j : ℕ).digitChar ↔ (i : ℕ) < j := by decide
  exact h ⟨a, ha⟩ ⟨b, hb⟩

/-- **Texts of one width compare as numbers.** -/
theorem digits_lt_iff {w m n : ℕ} (hm : m < 10 ^ w) (hn : n < 10 ^ w) :
    (digits w m < digits w n ↔ m < n) ∧ (digits w m = digits w n ↔ m = n) := by
  induction w generalizing m n with
  | zero =>
      rw [Nat.pow_zero, Nat.lt_one_iff] at hm hn
      rw [hm, hn]
      simp
  | succ w ih =>
      rw [Nat.pow_succ] at hm hn
      obtain ⟨hlt, heq⟩ := ih (m := m / 10) (n := n / 10) (Nat.div_lt_of_lt_mul (by omega))
        (Nat.div_lt_of_lt_mul (by omega))
      have hchar := digitChar_lt (Nat.mod_lt m (by omega)) (Nat.mod_lt n (by omega))
      have hchar' := digitChar_lt (Nat.mod_lt n (by omega)) (Nat.mod_lt m (by omega))
      have hlast : (m % 10).digitChar = (n % 10).digitChar ↔ m % 10 = n % 10 := by
        refine ⟨fun h => ?_, fun h => by rw [h]⟩
        rw [h] at hchar hchar'
        simp only [lt_irrefl, false_iff] at hchar hchar'
        omega
      constructor
      · rw [digits, digits, append_lt_append (by simp), hlt, heq, List.cons_lt_cons_iff, hchar]
        simp only [List.lt_irrefl, and_false, or_false]
        omega
      · rw [digits, digits, List.append_singleton_inj, heq, hlast]
        omega

/-! ### Digits among characters -/

theorem toNat_of_isDigit {c : Char} (h : c.isDigit = true) : 48 ≤ c.toNat ∧ c.toNat ≤ 57 := by
  rw [Char.isDigit, Bool.and_eq_true, decide_eq_true_eq, decide_eq_true_eq] at h
  exact h

/-- A digit is none of the other characters. -/
theorem ne_of_isDigit {c d : Char} (hc : c.isDigit = true) (hd : d.isDigit = false) : c ≠ d := by
  rintro rfl
  rw [hc] at hd
  exact Bool.noConfusion hd

end DbnPipe.Digits
