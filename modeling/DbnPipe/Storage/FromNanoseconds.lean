import DbnPipe.Storage.InstrumentMap
import DbnPipe.Library.Calendar

/-!
# The trading date of a timestamp

`FromNanoseconds` makes a signed count of an unsigned timestamp, moves it into the timezone, and takes the calendar
date of its day.

* `TimeZone`, `fixed`, `utc` — the offset from UTC at an instant;
* `fromNanoseconds`, `onSymbolMappingMsg` — **the functions of the source**; no date stands for an overflow;
* `RightDate` — the date is the calendar's, of the day that the unsigned timestamp counts;
* `fromNanoseconds_iff` — dates are right and in order **exactly below 2^63**, within what the local time can hold;
* `insertAdmitted_iff` — which messages make an interval that ends where it starts, or later.
-/

namespace DbnPipe.Storage

open Calendar

/-- A timezone: its seconds ahead of UTC at an instant. -/
abbrev TimeZone := ℤ → ℤ

/-- A timezone of one offset. -/
def fixed (offset : ℤ) : TimeZone := fun _ => offset

def utc : TimeZone := fixed 0

/-- The nanoseconds of a day. -/
def nsPerDay : ℤ := 86400 * 10 ^ 9

/-- A signed 64-bit number can hold it. -/
def Fits (x : ℤ) : Prop := -2 ^ 63 ≤ x ∧ x < 2 ^ 63

instance (x : ℤ) : Decidable (Fits x) := inferInstanceAs (Decidable (_ ∧ _))

/-- `get_local_time`: an offset in nanoseconds is added, and a signed overflow has no meaning. -/
def getLocalTime (zone : TimeZone) (sysTime : ℤ) : Option ℤ :=
  if Fits (zone sysTime * 10 ^ 9) ∧ Fits (sysTime + zone sysTime * 10 ^ 9) then some (sysTime + zone sysTime * 10 ^ 9)
  else none

/-- The trading date of a calendar date. -/
def TradingDate.ofDate (d : Date) : TradingDate where
  year := d.year
  month := d.month
  day := d.day
  valid := by
    have hdays := daysInMonth_bounds d.year d.month
    have hvalid := d.valid
    omega

theorem TradingDate.ofDate_le_iff (a b : Date) : ofDate a ≤ ofDate b ↔ a.key ≤ b.key := by
  have ha := a.valid
  have hb := b.valid
  have hda := daysInMonth_bounds a.year a.month
  have hdb := daysInMonth_bounds b.year b.month
  rw [← not_lt, ← not_lt, lt_def]
  simp only [ofDate, TradingDate.key, Date.key]
  omega

/-- `FromNanoseconds`. -/
def fromNanoseconds (zone : TimeZone) (nsSinceEpoch : UInt64) : Option TradingDate :=
  (getLocalTime zone nsSinceEpoch.toInt64.toInt).map fun localTime => .ofDate (civil (localTime / nsPerDay))

/-- What `OnSymbolMappingMsg` reads of a `SymbolMappingMsg`. -/
structure SymbolMappingMsg where
  instrumentId : UInt32
  stypeOutSymbol : Symbol
  startTs : UInt64
  endTs : UInt64

/-- The arguments with which `OnSymbolMappingMsg` calls `Insert`. -/
def insertArguments (zone : TimeZone) (msg : SymbolMappingMsg) : Option Mapping := do
  let start ← fromNanoseconds zone msg.startTs
  let stop ← fromNanoseconds zone msg.endTs
  some ⟨msg.instrumentId, msg.stypeOutSymbol, start, stop⟩

/-- `OnSymbolMappingMsg`. -/
def onSymbolMappingMsg (zone : TimeZone) (msg : SymbolMappingMsg) (m : InstrumentMap) : Option InstrumentMap :=
  (insertArguments zone msg).map (insertOne m)

/-! ### The signed count -/

theorem toInt64_toInt (ns : UInt64) :
    ns.toInt64.toInt = if ns.toNat < 2 ^ 63 then (ns.toNat : ℤ) else (ns.toNat : ℤ) - 2 ^ 64 := by
  have h : ns.toInt64.toInt = ns.toBitVec.toInt := rfl
  rw [h, BitVec.toInt_eq_toNat_cond, UInt64.toNat]
  split <;> split <;> omega

/-- A timestamp below 2^63 is its own signed count. -/
theorem toInt64_toInt_of_lt {ns : UInt64} (h : ns.toNat < 2 ^ 63) : ns.toInt64.toInt = ns.toNat := by
  rw [toInt64_toInt, if_pos h]

/-- **From 2^63 on the count is negative.** -/
theorem toInt64_toInt_of_ge {ns : UInt64} (h : 2 ^ 63 ≤ ns.toNat) : ns.toInt64.toInt = ns.toNat - 2 ^ 64 := by
  rw [toInt64_toInt, if_neg (by omega)]

/-! ### Dates and their order -/

theorem civil_le_iff (m n : ℤ) : TradingDate.ofDate (civil m) ≤ TradingDate.ofDate (civil n) ↔ m ≤ n := by
  rw [TradingDate.ofDate_le_iff]
  exact civil_strictMono.le_iff_le

theorem civil_inj {m n : ℤ} (h : TradingDate.ofDate (civil m) = TradingDate.ofDate (civil n)) : m = n :=
  le_antisymm ((civil_le_iff m n).mp h.le) ((civil_le_iff n m).mp h.ge)

theorem fromNanoseconds_eq_some {offset : ℤ} {ns : UInt64} {d : TradingDate} :
    fromNanoseconds (fixed offset) ns = some d ↔
      (Fits (offset * 10 ^ 9) ∧ Fits (ns.toInt64.toInt + offset * 10 ^ 9)) ∧
        .ofDate (civil ((ns.toInt64.toInt + offset * 10 ^ 9) / nsPerDay)) = d := by
  have hzone : fixed offset ns.toInt64.toInt = offset := rfl
  rw [fromNanoseconds, getLocalTime, hzone]
  rcases Decidable.em (Fits (offset * 10 ^ 9) ∧ Fits (ns.toInt64.toInt + offset * 10 ^ 9)) with h | h
  · rw [if_pos h, Option.map_some, Option.some.injEq]
    exact (and_iff_right h).symm
  · rw [if_neg h, Option.map_none]
    exact iff_of_false (fun hnone => by cases hnone) fun h' => h h'.1

/-- In every timezone the year is one that `year_` can hold. -/
theorem fromNanoseconds_year {zone : TimeZone} {ns : UInt64} {d : TradingDate}
    (h : fromNanoseconds zone ns = some d) : 1677 ≤ d.year ∧ d.year ≤ 2262 := by
  rw [fromNanoseconds, getLocalTime] at h
  split at h
  · rename_i hfits
    obtain ⟨-, hlow, hhigh⟩ := hfits
    rw [Option.map_some, Option.some.injEq] at h
    generalize ns.toInt64.toInt + zone ns.toInt64.toInt * 10 ^ 9 = localTime at h hlow hhigh
    have hfirst : civil (-106752) = ⟨1677, 9, 21, by decide⟩ := by decide
    have hlast : civil 106751 = ⟨2262, 4, 11, by decide⟩ := by decide
    have h1 := (civil_le_iff (-106752) (localTime / nsPerDay)).mpr (by rw [nsPerDay]; omega)
    have h2 := (civil_le_iff (localTime / nsPerDay) 106751).mpr (by rw [nsPerDay]; omega)
    have hvalid := (civil (localTime / nsPerDay)).valid
    have hdays := daysInMonth_bounds (civil (localTime / nsPerDay)).year (civil (localTime / nsPerDay)).month
    rw [TradingDate.ofDate_le_iff, hfirst] at h1
    rw [TradingDate.ofDate_le_iff, hlast] at h2
    rw [← h]
    simp only [Date.key, TradingDate.ofDate] at h1 h2 ⊢
    omega
  · cases h

/-- The date is the calendar's, of the day that the timestamp counts from 1970-01-01 in the timezone. -/
def RightDate (offset : ℤ) (ns : UInt64) : Prop :=
  ∃ date, IsDay ((ns.toNat + offset * 10 ^ 9) / nsPerDay) date ∧
    fromNanoseconds (fixed offset) ns = some (.ofDate date)

/-- The offset, and the timestamp with it, are signed 64-bit counts of nanoseconds. -/
def Representable (offset : ℤ) (ns : UInt64) : Prop :=
  Fits (offset * 10 ^ 9) ∧ Fits (ns.toNat + offset * 10 ^ 9)

instance (offset : ℤ) (ns : UInt64) : Decidable (Representable offset ns) := inferInstanceAs (Decidable (_ ∧ _))

/-- **A date is right exactly below 2^63**, where the local time can be held. -/
theorem rightDate_iff (offset : ℤ) (ns : UInt64) :
    RightDate offset ns ↔ ns.toNat < 2 ^ 63 ∧ Representable offset ns := by
  constructor
  · rintro ⟨date, hdate, hsome⟩
    rw [isDay_iff] at hdate
    subst hdate
    obtain ⟨⟨hoffset, htime⟩, hday⟩ := fromNanoseconds_eq_some.mp hsome
    have hsame := civil_inj hday
    rcases Nat.lt_or_ge ns.toNat (2 ^ 63) with hlt | hge
    · rw [toInt64_toInt_of_lt hlt] at htime
      exact ⟨hlt, hoffset, htime⟩
    · -- the two counts differ by more than a day
      rw [toInt64_toInt_of_ge hge, nsPerDay] at hsame
      omega
  · rintro ⟨hlt, hrep⟩
    refine ⟨_, (isDay_iff _ _).mpr rfl, fromNanoseconds_eq_some.mpr ?_⟩
    rw [toInt64_toInt_of_lt hlt]
    exact ⟨hrep, rfl⟩

/-- The dates are defined and in order. -/
def Ordered (zone : TimeZone) (a b : UInt64) : Prop :=
  ∃ start stop, fromNanoseconds zone a = some start ∧ fromNanoseconds zone b = some stop ∧ start ≤ stop

/-- Every message of these timestamps makes a call that `Insert` admits. -/
def InsertAdmitted (zone : TimeZone) (a b : UInt64) : Prop :=
  ∀ msg : SymbolMappingMsg, msg.startTs = a → msg.endTs = b →
    ∃ i, insertArguments zone msg = some i ∧ i.start ≤ i.stop

theorem insertAdmitted_iff (zone : TimeZone) (a b : UInt64) : InsertAdmitted zone a b ↔ Ordered zone a b := by
  constructor
  · intro h
    obtain ⟨i, hi, hle⟩ := h ⟨0, [], a, b⟩ rfl rfl
    simp only [insertArguments, Option.bind_eq_bind, Option.bind_eq_some_iff, Option.some.injEq] at hi
    obtain ⟨start, hstart, stop, hstop, rfl⟩ := hi
    exact ⟨start, stop, hstart, hstop, hle⟩
  · rintro ⟨start, stop, hstart, hstop, hle⟩ msg rfl rfl
    refine ⟨⟨msg.instrumentId, msg.stypeOutSymbol, start, stop⟩, ?_, hle⟩
    rw [insertArguments, hstart, hstop]
    rfl

/-- In UTC every timestamp has a date, right or not. -/
theorem fromNanoseconds_utc (ns : UInt64) :
    fromNanoseconds utc ns = some (.ofDate (civil (ns.toInt64.toInt / nsPerDay))) := by
  have hlt := ns.toNat_lt
  have htime : ns.toInt64.toInt + 0 * 10 ^ 9 = ns.toInt64.toInt := by omega
  refine fromNanoseconds_eq_some.mpr ?_
  rw [htime, toInt64_toInt]
  refine ⟨⟨by decide, ?_⟩, rfl⟩
  rw [Fits]
  split
  · omega
  · omega

/-- **In UTC the dates are in order exactly where 2^63 is not between the timestamps.** -/
theorem utc_ordered_iff {a b : UInt64} (h : a ≤ b) : Ordered utc a b ↔ b.toNat < 2 ^ 63 ∨ 2 ^ 63 ≤ a.toNat := by
  have hab : a.toNat ≤ b.toNat := h
  have ha := a.toNat_lt
  have hb := b.toNat_lt
  have hle : Ordered utc a b ↔ a.toInt64.toInt / nsPerDay ≤ b.toInt64.toInt / nsPerDay := by
    rw [Ordered, fromNanoseconds_utc, fromNanoseconds_utc, ← civil_le_iff]
    constructor
    · rintro ⟨start, stop, hstart, hstop, hle⟩
      rwa [Option.some.inj hstart, Option.some.inj hstop]
    · intro hle
      exact ⟨_, _, rfl, rfl, hle⟩
  rw [hle, toInt64_toInt, toInt64_toInt, nsPerDay]
  split
  · split
    · omega
    · omega
  · split
    · omega
    · omega

/-- **Dates are right and in order, and messages admitted, exactly below 2^63**, within what a local time can hold.
In UTC a message is admitted exactly where 2^63 is not between its timestamps. -/
theorem fromNanoseconds_iff (offset : ℤ) {a b : UInt64} (h : a ≤ b) :
    ((RightDate offset a ∧ RightDate offset b ∧ Ordered (fixed offset) a b ∧ InsertAdmitted (fixed offset) a b) ↔
        b.toNat < 2 ^ 63 ∧ Representable offset a ∧ Representable offset b) ∧
      (InsertAdmitted utc a b ↔ b.toNat < 2 ^ 63 ∨ 2 ^ 63 ≤ a.toNat) := by
  have hab : a.toNat ≤ b.toNat := h
  refine ⟨?_, (insertAdmitted_iff utc a b).trans (utc_ordered_iff h)⟩
  rw [insertAdmitted_iff, and_self_iff]
  constructor
  · rintro ⟨ha, hb, -⟩
    exact ⟨((rightDate_iff offset b).mp hb).1, ((rightDate_iff offset a).mp ha).2, ((rightDate_iff offset b).mp hb).2⟩
  · rintro ⟨hlt, hrepa, hrepb⟩
    have hlta : a.toNat < 2 ^ 63 := by omega
    have hra := (rightDate_iff offset a).mpr ⟨hlta, hrepa⟩
    have hrb := (rightDate_iff offset b).mpr ⟨hlt, hrepb⟩
    refine ⟨hra, hrb, ?_⟩
    obtain ⟨da, hda, hsomea⟩ := hra
    obtain ⟨db, hdb, hsomeb⟩ := hrb
    refine ⟨_, _, hsomea, hsomeb, ?_⟩
    rw [(isDay_iff _ _).mp hda, (isDay_iff _ _).mp hdb, civil_le_iff]
    exact Int.ediv_le_ediv (by decide) (by omega)

/-- Two days of January 2025, five hours west of UTC. -/
theorem fromNanoseconds_january :
    RightDate (-18000) 1735689600000000000 ∧ RightDate (-18000) 1738281600000000000 ∧
      Ordered (fixed (-18000)) 1735689600000000000 1738281600000000000 ∧
        InsertAdmitted (fixed (-18000)) 1735689600000000000 1738281600000000000 :=
  (fromNanoseconds_iff (-18000) (by decide)).1.mpr (by decide)

/-- **A message that never ends**, from January 2025 to the undefined timestamp, ends on 1969-12-31. -/
theorem not_insertAdmitted_undefined :
    (1735689600000000000 : UInt64) ≤ 18446744073709551615 ∧
      fromNanoseconds utc 1735689600000000000 = some ⟨2025, 1, 1, by decide⟩ ∧
      fromNanoseconds utc 18446744073709551615 = some ⟨1969, 12, 31, by decide⟩ ∧
      ¬ Ordered utc 1735689600000000000 18446744073709551615 ∧
        ¬ InsertAdmitted utc 1735689600000000000 18446744073709551615 := by
  have hle : (1735689600000000000 : UInt64) ≤ 18446744073709551615 := by decide
  have hordered : ¬ Ordered utc 1735689600000000000 18446744073709551615 := by
    rw [utc_ordered_iff hle]
    decide
  refine ⟨hle, ?_, ?_, hordered, fun h => hordered ((insertAdmitted_iff _ _ _).mp h)⟩
  · rw [fromNanoseconds_utc]
    decide
  · rw [fromNanoseconds_utc]
    decide

end DbnPipe.Storage
