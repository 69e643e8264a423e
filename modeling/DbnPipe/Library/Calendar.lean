import Mathlib.Data.Int.Order.Basic
import Mathlib.Order.Monotone.Basic
import Mathlib.Algebra.Order.Group.Int
import Mathlib.Order.SuccPred.Basic
import Mathlib.Tactic.IntervalCases
import Mathlib.Order.ConditionallyCompleteLattice.Defs
import Mathlib.Data.Int.ConditionallyCompleteOrder

/-!
# The proleptic Gregorian calendar

Dates with their leap years, in both directions from 1970-01-01, and the arithmetic that finds the date of a day.

* `Date` — a year, a month and a day **of that month**; `next` — the day after;
* `IsDay` — the date that many days after the epoch, **counted one by one**;
* `civil` — the date of a day, **computed**: years start in March, so that the leap day ends one;
* `isDay_iff` — they are the same;
* `civil_strictMono` — later days have later dates.
-/

namespace DbnPipe.Calendar

/-- The year has a February 29. -/
def isLeap (y : ℤ) : Bool := y % 4 = 0 && (y % 100 ≠ 0 || y % 400 = 0)

/-- The number of days of a month. -/
def daysInMonth (y : ℤ) (m : ℕ) : ℕ :=
  if m = 2 then if isLeap y then 29 else 28
  else if m = 4 ∨ m = 6 ∨ m = 9 ∨ m = 11 then 30
  else 31

/-- A date of the calendar. -/
@[ext] structure Date where
  year : ℤ
  month : ℕ
  day : ℕ
  valid : 1 ≤ month ∧ month ≤ 12 ∧ 1 ≤ day ∧ day ≤ daysInMonth year month
deriving DecidableEq

theorem daysInMonth_bounds (y : ℤ) (m : ℕ) : 28 ≤ daysInMonth y m ∧ daysInMonth y m ≤ 31 := by
  rw [daysInMonth]
  split_ifs <;> omega

theorem isLeap_iff (y : ℤ) : isLeap y = true ↔ y % 4 = 0 ∧ (y % 100 ≠ 0 ∨ y % 400 = 0) := by
  rw [isLeap, Bool.and_eq_true, Bool.or_eq_true, decide_eq_true_iff, decide_eq_true_iff, decide_eq_true_iff]

namespace Date

/-- The day after. -/
def next (d : Date) : Date :=
  if h : d.day < daysInMonth d.year d.month then
    ⟨d.year, d.month, d.day + 1, d.valid.1, d.valid.2.1, by omega, h⟩
  else if h' : d.month < 12 then
    ⟨d.year, d.month + 1, 1, by omega, h', le_refl 1, by have := daysInMonth_bounds d.year (d.month + 1); omega⟩
  else ⟨d.year + 1, 1, 1, by decide, by decide, le_refl 1, by have := daysInMonth_bounds (d.year + 1) 1; omega⟩

theorem next_within {d : Date} (h : d.day < daysInMonth d.year d.month) :
    d.next.year = d.year ∧ d.next.month = d.month ∧ d.next.day = d.day + 1 := by
  rw [next, dif_pos h]
  exact ⟨rfl, rfl, rfl⟩

theorem next_month {d : Date} (h : d.day = daysInMonth d.year d.month) (h' : d.month < 12) :
    d.next.year = d.year ∧ d.next.month = d.month + 1 ∧ d.next.day = 1 := by
  rw [next, dif_neg (by omega), dif_pos h']
  exact ⟨rfl, rfl, rfl⟩

theorem next_year {d : Date} (h : d.day = daysInMonth d.year d.month) (h' : d.month = 12) :
    d.next.year = d.year + 1 ∧ d.next.month = 1 ∧ d.next.day = 1 := by
  rw [next, dif_neg (by omega), dif_neg (by omega)]
  exact ⟨rfl, rfl, rfl⟩

/-- The day after is in the month, starts the next one, or starts the next year. -/
theorem next_cases (d : Date) :
    (d.day < daysInMonth d.year d.month ∧
        d.next.year = d.year ∧ d.next.month = d.month ∧ d.next.day = d.day + 1) ∨
      (d.day = daysInMonth d.year d.month ∧ d.month < 12 ∧
        d.next.year = d.year ∧ d.next.month = d.month + 1 ∧ d.next.day = 1) ∨
      (d.day = daysInMonth d.year d.month ∧ d.month = 12 ∧
        d.next.year = d.year + 1 ∧ d.next.month = 1 ∧ d.next.day = 1) := by
  have hv := d.valid
  rcases Nat.lt_or_ge d.day (daysInMonth d.year d.month) with hlt | hge
  · exact Or.inl ⟨hlt, next_within hlt⟩
  · have heq : d.day = daysInMonth d.year d.month := by omega
    rcases Nat.lt_or_ge d.month 12 with hlt | hge
    · exact Or.inr (Or.inl ⟨heq, hlt, next_month heq hlt⟩)
    · exact Or.inr (Or.inr ⟨heq, by omega, next_year heq (by omega)⟩)

theorem next_injective : Function.Injective next := by
  intro a b h
  have ha := a.valid
  have hb := b.valid
  have hsame : a.year = b.year ∧ a.month = b.month := by
    rcases next_cases a with ⟨-, hay, ham, had⟩ | ⟨-, -, hay, ham, had⟩ | ⟨-, hadec, hay, ham, had⟩ <;>
      rcases next_cases b with ⟨-, hby, hbm, hbd⟩ | ⟨-, -, hby, hbm, hbd⟩ | ⟨-, hbdec, hby, hbm, hbd⟩ <;>
      rw [h] at hay ham had <;> omega
  have hdays : daysInMonth a.year a.month = daysInMonth b.year b.month := by rw [hsame.1, hsame.2]
  refine Date.ext hsame.1 hsame.2 ?_
  rcases next_cases a with ⟨-, -, ham, had⟩ | ⟨ha', -, -, ham, had⟩ | ⟨ha', -, -, ham, had⟩ <;>
    rcases next_cases b with ⟨-, -, hbm, hbd⟩ | ⟨hb', -, -, hbm, hbd⟩ | ⟨hb', -, -, hbm, hbd⟩ <;>
    rw [h] at ham had <;> omega

/-- The date as one number, in the order of the calendar. -/
def key (d : Date) : ℤ := (d.year * 12 + d.month) * 31 + d.day

theorem key_lt_next (d : Date) : d.key < d.next.key := by
  have hv := d.valid
  rw [key, key]
  have hdays := daysInMonth_bounds d.year d.month
  rcases next_cases d with ⟨-, hy, hm, hd⟩ | ⟨-, -, hy, hm, hd⟩ | ⟨-, hlast, hy, hm, hd⟩ <;> rw [hy, hm, hd] <;> omega

end Date

/-- 1970-01-01. -/
def epoch : Date := ⟨1970, 1, 1, by decide⟩

/-- The date `n` days after the epoch, or before it. -/
def IsDay : ℤ → Date → Prop
  | .ofNat n, d => Date.next^[n] epoch = d
  | .negSucc n, d => Date.next^[n + 1] d = epoch

/-! ### Years that start in March -/

/-- The days from March 1 of the year 0 to March 1 of a year. -/
def marchFirst (y : ℤ) : ℤ := 365 * y + y / 4 - y / 100 + y / 400

/-- The year of a day, counted from March 1 of the year 0 and in years that start in March. -/
def marchYear (z : ℤ) : ℤ :=
  let ofEra := z % 146097
  let century := min 3 (ofEra / 36524)
  let ofCentury := ofEra - 36524 * century
  let olympiad := ofCentury / 1461
  400 * (z / 146097) + 100 * century + 4 * olympiad + min 3 (ofCentury % 1461 / 365)

theorem marchFirst_succ (y : ℤ) : marchFirst (y + 1) = marchFirst y + if isLeap (y + 1) then 366 else 365 := by
  rw [marchFirst, marchFirst]
  split
  · rename_i h
    rw [isLeap_iff] at h
    omega
  · rename_i h
    rw [isLeap_iff] at h
    omega

/-- The start of a year by its century and its place among four. -/
theorem marchFirst_eq (era century olympiad year : ℤ) (hcentury : 0 ≤ century ∧ century ≤ 3)
    (holympiad : 0 ≤ olympiad ∧ olympiad ≤ 24) (hyear : 0 ≤ year ∧ year ≤ 3) :
    marchFirst (400 * era + 100 * century + 4 * olympiad + year) =
      146097 * era + 36524 * century + 1461 * olympiad + 365 * year := by
  have h4 : (400 * era + 100 * century + 4 * olympiad + year) / 4 = 100 * era + 25 * century + olympiad := by omega
  have h100 : (400 * era + 100 * century + 4 * olympiad + year) / 100 = 4 * era + century := by omega
  have h400 : (400 * era + 100 * century + 4 * olympiad + year) / 400 = era := by omega
  rw [marchFirst, h4, h100, h400]
  omega

/-- The fourth year of four ends with a leap day, other than that of three centuries out of four. -/
theorem isLeap_of_fourth (era century olympiad : ℤ) (holympiad : 0 ≤ olympiad ∧ olympiad ≤ 24)
    (hlast : olympiad = 24 → century = 3) : isLeap (400 * era + 100 * century + 4 * olympiad + 3 + 1) = true := by
  refine (isLeap_iff _).mpr ⟨by omega, ?_⟩
  rcases Decidable.em (olympiad = 24) with heq | hne
  · right
    have := hlast heq
    omega
  · left
    omega

/-- The day is in its year. -/
theorem marchYear_spec (z : ℤ) : marchFirst (marchYear z) ≤ z ∧ z < marchFirst (marchYear z + 1) := by
  obtain ⟨era, ofEra, hz, hofEra, hera⟩ : ∃ era ofEra : ℤ, z = 146097 * era + ofEra ∧ ofEra = z % 146097 ∧
      era = z / 146097 := ⟨_, _, (Int.mul_ediv_add_emod z 146097).symm, rfl, rfl⟩
  have hrange : 0 ≤ ofEra ∧ ofEra < 146097 := by omega
  rw [marchYear, ← hofEra, ← hera]
  clear hofEra hera
  subst hz
  obtain ⟨century, hcentury⟩ : ∃ century, century = min 3 (ofEra / 36524) := ⟨_, rfl⟩
  simp only [← hcentury]
  have h1 : 0 ≤ century ∧ century ≤ 3 := by omega
  obtain ⟨ofCentury, hofCentury⟩ : ∃ ofCentury, ofCentury = ofEra - 36524 * century := ⟨_, rfl⟩
  have h2 : 0 ≤ ofCentury ∧ (ofCentury < 36524 ∨ century = 3 ∧ ofCentury < 36525) := by omega
  clear hcentury
  obtain rfl : ofEra = 36524 * century + ofCentury := by omega
  simp only [add_sub_cancel_left]
  obtain ⟨olympiad, rest, hrest, holympiad, hmod⟩ : ∃ olympiad rest : ℤ, ofCentury = 1461 * olympiad + rest ∧
      olympiad = ofCentury / 1461 ∧ rest = ofCentury % 1461 :=
    ⟨_, _, (Int.mul_ediv_add_emod ofCentury 1461).symm, rfl, rfl⟩
  rw [← holympiad, ← hmod]
  have h3 : 0 ≤ rest ∧ rest < 1461 ∧ 0 ≤ olympiad ∧ olympiad ≤ 24 := by omega
  have hlast : olympiad = 24 → rest = 1460 → century = 3 := by omega
  clear holympiad hmod hrange h2
  subst hrest
  obtain ⟨year, hyear⟩ : ∃ year, year = min 3 (rest / 365) := ⟨_, rfl⟩
  rw [← hyear]
  have h4 : 0 ≤ year ∧ year ≤ 3 ∧ 365 * year ≤ rest ∧ (rest < 365 * year + 365 ∨ year = 3 ∧ rest = 1460) := by omega
  clear hyear
  rw [marchFirst_succ, marchFirst_eq era century olympiad year h1 h3.2.2 ⟨h4.1, h4.2.1⟩]
  refine ⟨by omega, ?_⟩
  rcases h4.2.2.2 with hlt | ⟨rfl, hrest⟩
  · split <;> omega
  · rw [isLeap_of_fourth era century olympiad h3.2.2 fun h => hlast h hrest, if_pos rfl]
    omega

/-! ### Months from March on -/

/-- The month of a day of such a year, March being 0. -/
def marchMonth (t : ℕ) : ℕ := (5 * t + 2) / 153

/-- The days of such a year before a month. -/
def monthFirst (m : ℕ) : ℕ := (153 * m + 2) / 5

/-- The number of a month in a year that starts in January. -/
def monthNumber (m : ℕ) : ℕ := if m < 10 then m + 3 else m - 9

/-- The year of a month, for the year that started in the March before. -/
def monthYear (y : ℤ) (m : ℕ) : ℤ := if m < 10 then y else y + 1

theorem marchMonth_spec (t : ℕ) : monthFirst (marchMonth t) ≤ t ∧ t < monthFirst (marchMonth t + 1) := by
  simp only [marchMonth, monthFirst]
  omega

theorem marchMonth_eq {t m : ℕ} (h1 : monthFirst m ≤ t) (h2 : t < monthFirst (m + 1)) : marchMonth t = m := by
  simp only [marchMonth, monthFirst] at *
  omega

/-- The months other than February are as long as the days between their starts. -/
theorem daysInMonth_monthNumber (y : ℤ) {m : ℕ} (hm : m < 11) :
    daysInMonth (monthYear y m) (monthNumber m) = monthFirst (m + 1) - monthFirst m := by
  interval_cases m <;> rfl

/-- February takes what is left of the year. -/
theorem daysInMonth_february (y : ℤ) :
    (daysInMonth (monthYear y 11) (monthNumber 11) : ℤ) + monthFirst 11 = marchFirst (y + 1) - marchFirst y := by
  have hdays : daysInMonth (monthYear y 11) (monthNumber 11) = if isLeap (y + 1) then 29 else 28 := rfl
  rw [marchFirst_succ, hdays, monthFirst]
  split
  · omega
  · omega

theorem length_marchYear (y : ℤ) :
    365 ≤ marchFirst (y + 1) - marchFirst y ∧ marchFirst (y + 1) - marchFirst y ≤ 366 := by
  rw [marchFirst_succ]
  split <;> omega

/-- The month of a day of the year has that day. -/
theorem day_le_daysInMonth (y : ℤ) {t : ℕ} (ht : (t : ℤ) < marchFirst (y + 1) - marchFirst y) :
    marchMonth t < 12 ∧ t - monthFirst (marchMonth t) + 1 ≤
      daysInMonth (monthYear y (marchMonth t)) (monthNumber (marchMonth t)) := by
  have hspec := marchMonth_spec t
  have hlength := length_marchYear y
  have hmonth : marchMonth t < 12 := by
    simp only [marchMonth]
    omega
  refine ⟨hmonth, ?_⟩
  rcases Nat.lt_or_ge (marchMonth t) 11 with hlt | hge
  · rw [daysInMonth_monthNumber y hlt]
    omega
  · obtain heq : marchMonth t = 11 := by omega
    have hfebruary := daysInMonth_february y
    rw [heq] at hspec ⊢
    omega

/-- The date of a day of the year that starts in March. -/
def ofMarch (y : ℤ) (t : ℕ) (ht : (t : ℤ) < marchFirst (y + 1) - marchFirst y) : Date where
  year := monthYear y (marchMonth t)
  month := monthNumber (marchMonth t)
  day := t - monthFirst (marchMonth t) + 1
  valid := by
    have hmonth := (day_le_daysInMonth y ht).1
    refine ⟨?_, ?_, by omega, (day_le_daysInMonth y ht).2⟩
    · rw [monthNumber]
      split <;> omega
    · rw [monthNumber]
      split <;> omega

/-- The day after, in the same year. -/
theorem next_ofMarch {y : ℤ} {t : ℕ} (ht : (t : ℤ) < marchFirst (y + 1) - marchFirst y)
    (ht' : ((t + 1 : ℕ) : ℤ) < marchFirst (y + 1) - marchFirst y) : (ofMarch y t ht).next = ofMarch y (t + 1) ht' := by
  have hspec := marchMonth_spec t
  have hmonth := (day_le_daysInMonth y ht).1
  have hmonth' := (day_le_daysInMonth y ht').1
  rcases Nat.lt_or_ge (t + 1) (monthFirst (marchMonth t + 1)) with hlt | hge
  · -- the next day is of the same month
    have hsame : marchMonth (t + 1) = marchMonth t := marchMonth_eq (by omega) hlt
    have hbound := (day_le_daysInMonth y ht').2
    rw [hsame] at hbound
    have hnext := Date.next_within (d := ofMarch y t ht) (by simp only [ofMarch]; omega)
    refine Date.ext (hnext.1.trans ?_) (hnext.2.1.trans ?_) (hnext.2.2.trans ?_)
    · simp only [ofMarch, hsame]
    · simp only [ofMarch, hsame]
    · simp only [ofMarch, hsame]
      omega
  · -- the next day is the first of a month
    have hfirst : t + 1 = monthFirst (marchMonth t + 1) := by omega
    have hsucc : marchMonth (t + 1) = marchMonth t + 1 := by
      refine marchMonth_eq hge ?_
      simp only [monthFirst] at *
      omega
    have hlast : (ofMarch y t ht).day = daysInMonth (ofMarch y t ht).year (ofMarch y t ht).month := by
      simp only [ofMarch]
      rw [daysInMonth_monthNumber y (by omega)]
      omega
    rcases Decidable.em (marchMonth t = 9) with hnine | hne
    · have hnext := Date.next_year hlast (by simp only [ofMarch, hnine, monthNumber]; rfl)
      refine Date.ext (hnext.1.trans ?_) (hnext.2.1.trans ?_) (hnext.2.2.trans ?_)
      · simp only [ofMarch, hsucc, hnine]
        rfl
      · simp only [ofMarch, hsucc, hnine]
        rfl
      · simp only [ofMarch, hsucc]
        omega
    · have hnext := Date.next_month hlast (by simp only [ofMarch, monthNumber]; split <;> omega)
      refine Date.ext (hnext.1.trans ?_) (hnext.2.1.trans ?_) (hnext.2.2.trans ?_)
      · simp only [ofMarch, hsucc, monthYear]
        split <;> split <;> omega
      · simp only [ofMarch, hsucc, monthNumber]
        split <;> split <;> omega
      · simp only [ofMarch, hsucc]
        omega

/-- The day after the last of February is March 1. -/
theorem next_ofMarch_last {y : ℤ} {t : ℕ} (ht : (t : ℤ) < marchFirst (y + 1) - marchFirst y)
    (hlast : ((t + 1 : ℕ) : ℤ) = marchFirst (y + 1) - marchFirst y)
    (ht' : ((0 : ℕ) : ℤ) < marchFirst (y + 1 + 1) - marchFirst (y + 1)) :
    (ofMarch y t ht).next = ofMarch (y + 1) 0 ht' := by
  have hlength := length_marchYear y
  have hmonth : marchMonth t = 11 := by
    simp only [marchMonth]
    omega
  have hday : (ofMarch y t ht).day = daysInMonth (ofMarch y t ht).year (ofMarch y t ht).month := by
    have hspec := marchMonth_spec t
    have hfebruary := daysInMonth_february y
    simp only [ofMarch]
    rw [hmonth] at hspec ⊢
    omega
  have hnext := Date.next_month hday (by simp only [ofMarch, hmonth]; decide)
  refine Date.ext (hnext.1.trans ?_) (hnext.2.1.trans ?_) (hnext.2.2.trans ?_)
  · simp only [ofMarch, hmonth]
    rfl
  · simp only [ofMarch, hmonth]
    rfl
  · rfl

/-! ### The date of a day -/

/-- 1970-01-01, counted from March 1 of the year 0. -/
def epochDay : ℤ := 719468

theorem dayOfYear_lt (z : ℤ) :
    ((z - marchFirst (marchYear z)).toNat : ℤ) < marchFirst (marchYear z + 1) - marchFirst (marchYear z) := by
  have hspec := marchYear_spec z
  omega

/-- The date of a day, counted from March 1 of the year 0. -/
def ofDay (z : ℤ) : Date := ofMarch (marchYear z) (z - marchFirst (marchYear z)).toNat (dayOfYear_lt z)

/-- **The date of a day**, counted from the epoch. -/
def civil (n : ℤ) : Date := ofDay (n + epochDay)

theorem marchFirst_mono {y y' : ℤ} (h : y ≤ y') : marchFirst y ≤ marchFirst y' := by
  simp only [marchFirst]
  omega

/-- A day is in one year only. -/
theorem marchYear_eq {z y : ℤ} (h1 : marchFirst y ≤ z) (h2 : z < marchFirst (y + 1)) : marchYear z = y := by
  have hspec := marchYear_spec z
  rcases lt_trichotomy (marchYear z) y with hlt | heq | hgt
  · have := marchFirst_mono (show marchYear z + 1 ≤ y from hlt)
    omega
  · exact heq
  · have := marchFirst_mono (show y + 1 ≤ marchYear z from hgt)
    omega

theorem ofDay_eq {z y : ℤ} {t : ℕ} (ht : (t : ℤ) < marchFirst (y + 1) - marchFirst y) (hz : z = marchFirst y + t) :
    ofDay z = ofMarch y t ht := by
  obtain rfl : marchYear z = y := marchYear_eq (by omega) (by omega)
  obtain rfl : t = (z - marchFirst (marchYear z)).toNat := by omega
  rfl

/-- **The date of the day after is the day after the date.** -/
theorem ofDay_succ (z : ℤ) : ofDay (z + 1) = (ofDay z).next := by
  have hspec := marchYear_spec z
  have ht := dayOfYear_lt z
  rcases lt_or_ge (z + 1) (marchFirst (marchYear z + 1)) with hlt | hge
  · have hnext : (ofDay z).next = _ := next_ofMarch ht (by omega)
    rw [hnext]
    exact ofDay_eq _ (by omega)
  · have hlength := length_marchYear (marchYear z + 1)
    have hfirst : ((0 : ℕ) : ℤ) < marchFirst (marchYear z + 1 + 1) - marchFirst (marchYear z + 1) := by omega
    have hnext : (ofDay z).next = _ := next_ofMarch_last ht (by omega) hfirst
    rw [hnext]
    exact ofDay_eq _ (by omega)

theorem civil_zero : civil 0 = epoch := by decide

theorem civil_succ (n : ℤ) : civil (n + 1) = (civil n).next := by
  rw [civil, civil, ← ofDay_succ]
  congr 1
  omega

/-- Going on day by day. -/
theorem next_iterate_civil (k : ℕ) (n : ℤ) : Date.next^[k] (civil n) = civil (n + k) := by
  induction k generalizing n with
  | zero => rw [Function.iterate_zero_apply, Nat.cast_zero, add_zero]
  | succ k ih =>
      rw [Function.iterate_succ_apply, ← civil_succ, ih]
      congr 1
      omega

/-- **The computed date is the one found by counting.** -/
theorem isDay_iff (n : ℤ) (d : Date) : IsDay n d ↔ d = civil n := by
  cases n with
  | ofNat k =>
      rw [IsDay, ← civil_zero, next_iterate_civil, zero_add]
      exact eq_comm
  | negSucc k =>
      have hback : Date.next^[k + 1] (civil (Int.negSucc k)) = epoch := by
        rw [next_iterate_civil, ← civil_zero, Int.negSucc_eq]
        congr 1
        omega
      rw [IsDay, ← hback]
      exact (Date.next_injective.iterate (k + 1)).eq_iff

/-- **Later days have later dates.** -/
theorem civil_strictMono : StrictMono fun n => (civil n).key := by
  refine strictMono_int_of_lt_succ fun n => ?_
  rw [civil_succ]
  exact Date.key_lt_next (civil n)

end DbnPipe.Calendar
