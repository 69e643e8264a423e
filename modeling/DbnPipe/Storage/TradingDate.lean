import DbnPipe.Library.Digits
import Mathlib.Tactic.Linarith

/-!
# Trading dates

`TradingDate` and the text it is stored as.

* `TradingDate` — a year, a month and a day; the constructors in use make no other months and days;
* `TradingDate.lt` — the comparison of the source, which is **the order of the dates**;
* `toIsoString` — `YYYY-MM-DD`;
* `toIsoString_lt`, `toIsoString_inj` — with four-digit years **the texts compare like the dates**.
-/

namespace DbnPipe.Storage

open Digits

/-- A date as `FromIsoString` and `FromNanoseconds` make it. -/
structure TradingDate where
  year : ℤ
  month : ℕ
  day : ℕ
  valid : 1 ≤ month ∧ month ≤ 12 ∧ 1 ≤ day ∧ day ≤ 31
deriving DecidableEq

namespace TradingDate

/-- `operator<`. -/
def lt (a b : TradingDate) : Bool :=
  if a.year ≠ b.year then decide (a.year < b.year)
  else if a.month ≠ b.month then decide (a.month < b.month)
  else decide (a.day < b.day)

/-- The date as one number. -/
def key (d : TradingDate) : ℤ := (d.year * 100 + d.month) * 100 + d.day

theorem key_injective : Function.Injective key := by
  rintro ⟨y, m, d, hv⟩ ⟨y', m', d', hv'⟩ h
  simp only [key] at h
  obtain rfl : y = y' := by omega
  obtain rfl : m = m' := by omega
  obtain rfl : d = d' := by omega
  rfl

instance : LinearOrder TradingDate := LinearOrder.lift' key key_injective

theorem lt_def (a b : TradingDate) : a < b ↔ a.key < b.key := Iff.rfl

/-- **The comparison of the source is the order of the dates.** -/
theorem lt_eq (a b : TradingDate) : a.lt b = decide (a < b) := by
  have ha := a.valid
  have hb := b.valid
  rw [lt, Bool.eq_iff_iff, decide_eq_true_iff, lt_def, key, key]
  split
  · rw [decide_eq_true_iff]
    omega
  · split
    · rw [decide_eq_true_iff]
      omega
    · rw [decide_eq_true_iff]
      omega

/-- `operator<=`. -/
def le (a b : TradingDate) : Bool := a.lt b || decide (a = b)

theorem le_eq (a b : TradingDate) : a.le b = decide (a ≤ b) := by
  rw [le, lt_eq, Bool.eq_iff_iff, Bool.or_eq_true, decide_eq_true_iff, decide_eq_true_iff, decide_eq_true_iff,
    le_iff_lt_or_eq]

/-! ### The text of a date -/

/-- `%0wd` of `printf`. -/
def printed (w : ℕ) : ℤ → List Char
  | .ofNat n => zeroPadded w n
  | .negSucc n => '-' :: zeroPadded (w - 1) (n + 1)

/-- `ToIsoString`. -/
def toIsoString (d : TradingDate) : List Char :=
  printed 4 d.year ++ '-' :: (printed 2 d.month ++ '-' :: printed 2 d.day)

/-- The year is written with four digits. -/
def FourDigits (d : TradingDate) : Prop := 0 ≤ d.year ∧ d.year ≤ 9999

instance (d : TradingDate) : Decidable d.FourDigits := inferInstanceAs (Decidable (_ ∧ _))

/-- With four digits for the year the text is made of digits of fixed widths. -/
theorem toIsoString_eq {d : TradingDate} (h : d.FourDigits) :
    d.toIsoString = digits 4 d.year.toNat ++ '-' :: (digits 2 d.month ++ '-' :: digits 2 d.day) := by
  obtain ⟨hnonneg, hle⟩ := h
  have hv := d.valid
  obtain ⟨y, hy⟩ := Int.eq_ofNat_of_zero_le hnonneg
  rw [toIsoString, hy, Int.toNat_natCast]
  rw [← zeroPadded_eq (show y < 10 ^ (3 + 1) by omega), ← zeroPadded_eq (show d.month < 10 ^ (1 + 1) by omega),
    ← zeroPadded_eq (show d.day < 10 ^ (1 + 1) by omega)]
  rfl

/-- **The texts compare like the dates.** -/
theorem toIsoString_lt {a b : TradingDate} (ha : a.FourDigits) (hb : b.FourDigits) :
    a.toIsoString < b.toIsoString ↔ a < b := by
  have hva := a.valid
  have hvb := b.valid
  obtain ⟨hylt, hyeq⟩ := digits_lt_iff (w := 4) (show a.year.toNat < 10 ^ 4 by have := ha.2; omega)
    (show b.year.toNat < 10 ^ 4 by have := hb.2; omega)
  obtain ⟨hmlt, hmeq⟩ := digits_lt_iff (w := 2) (show a.month < 10 ^ 2 by omega) (show b.month < 10 ^ 2 by omega)
  obtain ⟨hdlt, -⟩ := digits_lt_iff (w := 2) (show a.day < 10 ^ 2 by omega) (show b.day < 10 ^ 2 by omega)
  rw [toIsoString_eq ha, toIsoString_eq hb, append_lt_append (by simp), hylt, hyeq, List.cons_lt_cons_iff,
    append_lt_append (by simp), hmlt, hmeq, List.cons_lt_cons_iff, hdlt, lt_def, key, key]
  have hya := ha.1
  have hyb := hb.1
  simp only [lt_irrefl, false_or, true_and]
  omega

theorem toIsoString_le {a b : TradingDate} (ha : a.FourDigits) (hb : b.FourDigits) :
    a.toIsoString ≤ b.toIsoString ↔ a ≤ b := by
  rw [← not_lt, ← not_lt, toIsoString_lt hb ha]

theorem toIsoString_inj {a b : TradingDate} (ha : a.FourDigits) (hb : b.FourDigits) :
    a.toIsoString = b.toIsoString ↔ a = b := by
  refine ⟨fun h => le_antisymm ?_ ?_, fun h => by rw [h]⟩
  · exact (toIsoString_le ha hb).mp (le_of_eq h)
  · exact (toIsoString_le hb ha).mp (le_of_eq h.symm)

end TradingDate

end DbnPipe.Storage
