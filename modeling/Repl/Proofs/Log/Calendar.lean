import Mathlib.Algebra.BigOperators.Group.Finset.Basic
import Mathlib.Tactic.IntervalCases
import Mathlib.Tactic.Ring
import Repl.Log.Timestamp

/-!
The Gregorian calendar, by its leap years and the lengths of its months, extended to all years
before it was introduced. The dates of days counted from the start of 1970 are dates of this
calendar, and as many days away from the start of 1970 as they should be.
-/

namespace Repl.Log.Date

/-! ## The calendar -/

/-- Every fourth year is a leap year, but of the years that end a century every fourth only. -/
def IsLeap (year : Int) : Prop :=
  4 ∣ year ∧ (100 ∣ year → 400 ∣ year)

instance (year : Int) : Decidable (IsLeap year) :=
  inferInstanceAs (Decidable (_ ∧ _))

def yearLength (year : Int) : Nat :=
  if IsLeap year then 366 else 365

def monthLength (year : Int) : Nat → Nat
  | 2 => if IsLeap year then 29 else 28
  | 4 | 6 | 9 | 11 => 30
  | _ => 31

structure Valid (d : Date) : Prop where
  one_le_month : 1 ≤ d.month
  month_le : d.month ≤ 12
  one_le_day : 1 ≤ d.day
  day_le : d.day ≤ monthLength d.year d.month

/-- The days from the start of 1970 to the start of a year: those of the years from 1970 on, less
those of the years back from 1969. -/
def daysToYear (year : Int) : Int :=
  (∑ k ∈ Finset.range (year - 1970).toNat, yearLength (1970 + k) : Nat) -
    (∑ k ∈ Finset.range (1970 - year).toNat, yearLength (1969 - k) : Nat)

/-- The days from the start of a year to the start of a month. -/
def daysToMonth (year : Int) (month : Nat) : Nat :=
  ∑ k ∈ Finset.range (month - 1), monthLength year (k + 1)

/-- The days from 1 January 1970 to a date: those of whole years, of whole months and of the month
itself. -/
def daysSinceEpoch (d : Date) : Int :=
  daysToYear d.year + daysToMonth d.year d.month + (d.day - 1 : Nat)

theorem daysToYear_succ (year : Int) :
    daysToYear (year + 1) = daysToYear year + yearLength year := by
  unfold daysToYear
  -- From 1970 on the year joins the first sum, and before that it leaves the second.
  rcases le_or_gt 1970 year with h | h
  · obtain ⟨n, rfl⟩ := Int.le.dest h
    have hnow : (1970 + n - 1970 : Int).toNat = n := by omega
    have hnext : (1970 + n + 1 - 1970 : Int).toNat = n + 1 := by omega
    have hbefore : (1970 - (1970 + n) : Int).toNat = 0 := by omega
    have hbefore' : (1970 - (1970 + n + 1) : Int).toNat = 0 := by omega
    rw [hnow, hnext, hbefore, hbefore', Finset.sum_range_succ]
    omega
  · obtain ⟨n, rfl⟩ : ∃ n : Nat, year = 1969 - n := ⟨(1969 - year).toNat, by omega⟩
    have hnow : (1970 - (1969 - n) : Int).toNat = n + 1 := by omega
    have hnext : (1970 - (1969 - n + 1) : Int).toNat = n := by omega
    have hafter : (1969 - n - 1970 : Int).toNat = 0 := by omega
    have hafter' : (1969 - n + 1 - 1970 : Int).toNat = 0 := by omega
    rw [hnow, hnext, hafter, hafter', Finset.sum_range_succ]
    omega

/-- A year has 365 days, and every leap year before another one day more. -/
theorem daysToYear_eq (year : Int) :
    daysToYear year =
      365 * (year - 1970) + ((year - 1) / 4 - (year - 1) / 100 + (year - 1) / 400 - 477) := by
  -- A quotient grows in just the years that its divisor divides.
  have hlength : ∀ y : Int, (yearLength y : Int) =
      365 + (y / 4 - (y - 1) / 4) - (y / 100 - (y - 1) / 100) + (y / 400 - (y - 1) / 400) := by
    intro y
    unfold yearLength
    split
    · rename_i hleap
      unfold IsLeap at hleap
      omega
    · rename_i hcommon
      unfold IsLeap at hcommon
      omega
  induction year using Int.inductionOn' (b := 1970) with
  | zero => rfl
  | succ y _ ih =>
    rw [daysToYear_succ, ih, hlength, Int.add_sub_cancel]
    omega
  | pred y _ ih =>
    have hprevious := daysToYear_succ (y - 1)
    rw [Int.sub_add_cancel, ih, hlength] at hprevious
    omega

theorem daysToMonth_eq (year : Int) {month : Nat} (hpos : 1 ≤ month) (hle : month ≤ 12) :
    daysToMonth year month =
      if month < 3 then 31 * (month - 1)
      else 59 + (yearLength year - 365) + daysBeforeMonth (month - 3) := by
  unfold daysToMonth yearLength
  interval_cases month <;> simp [Finset.sum_range_succ, monthLength, daysBeforeMonth] <;>
    split <;> simp

/-! ## Years that begin in March -/

/-- The days from 1 March of the year 0 to 1 March of a year. -/
def daysToMarch (year : Int) : Int :=
  year.fdiv 400 * daysPerEra + daysBeforeYear (year.fmod 400).toNat

theorem daysToMarch_eq (year : Int) :
    daysToMarch year = 365 * year + (year / 4 - year / 100 + year / 400) := by
  rw [daysToMarch, Int.fdiv_eq_ediv_of_nonneg _ (by decide),
    Int.fmod_eq_emod_of_nonneg _ (by decide)]
  unfold daysPerEra daysBeforeYear
  omega

theorem daysToMarch_of_era (era : Int) {year : Nat} (h : year < 400) :
    daysToMarch (era * 400 + year) = era * daysPerEra + daysBeforeYear year := by
  have hera : (era * 400 + year : Int).fdiv 400 = era := by
    rw [Int.fdiv_eq_ediv_of_nonneg _ (by decide)]
    omega
  have hyear : ((era * 400 + year : Int).fmod 400).toNat = year := by
    rw [Int.fmod_eq_emod_of_nonneg _ (by decide)]
    omega
  rw [daysToMarch, hera, hyear]

/-- January and February end the year that begins in March. -/
theorem toDays_of_lt {d : Date} (h : d.month < 3) :
    d.toDays = daysToMarch (d.year - 1) + daysBeforeMonth (d.month + 9) + (d.day - 1 : Nat) -
      epochOffset := by
  simp only [toDays, if_pos h]
  rfl

theorem toDays_of_le {d : Date} (h : 3 ≤ d.month) :
    d.toDays = daysToMarch d.year + daysBeforeMonth (d.month - 3) + (d.day - 1 : Nat) -
      epochOffset := by
  simp only [toDays, if_neg (Nat.not_lt.2 h)]
  rfl

/-- The date of a day of the year that begins on 1 March. Days are counted from zero. -/
def fromMarch (year : Int) (dayOfYear : Nat) : Date :=
  let month := (5 * dayOfYear + 2) / 153
  { year := year + if month < 10 then 0 else 1
    month := if month < 10 then month + 3 else month - 9
    day := dayOfYear - daysBeforeMonth month + 1 }

/-- A day of the year by its month, where March is the first. -/
theorem fromMarch_cases (year : Int) {dayOfYear : Nat} (h : dayOfYear ≤ 365) :
    ∃ month day, month < 12 ∧ dayOfYear = daysBeforeMonth month + day ∧
      dayOfYear < daysBeforeMonth (month + 1) ∧
        (month < 10 ∧ fromMarch year dayOfYear = ⟨year, month + 3, day + 1⟩ ∨
          10 ≤ month ∧ fromMarch year dayOfYear = ⟨year + 1, month - 9, day + 1⟩) := by
  refine ⟨(5 * dayOfYear + 2) / 153, dayOfYear - daysBeforeMonth ((5 * dayOfYear + 2) / 153), ?_⟩
  unfold fromMarch daysBeforeMonth
  refine ⟨by omega, by omega, by omega, ?_⟩
  by_cases hten : (5 * dayOfYear + 2) / 153 < 10
  · refine .inl ⟨hten, ?_⟩
    simp only [if_pos hten, Int.add_zero]
  · refine .inr ⟨Nat.not_lt.1 hten, ?_⟩
    simp only [if_neg hten]

theorem valid_fromMarch {year : Int} {dayOfYear : Nat} (h : dayOfYear ≤ 365)
    (hleap : dayOfYear = 365 → IsLeap (year + 1)) : (fromMarch year dayOfYear).Valid := by
  obtain ⟨month, day, hmonth, hday, hnext, ⟨hten, hdate⟩ | ⟨hten, hdate⟩⟩ := fromMarch_cases year h
  · have hlength : day + 1 ≤ monthLength year (month + 3) := by
      unfold daysBeforeMonth at hday hnext
      interval_cases month <;> simp [monthLength] <;> omega
    rw [hdate]
    exact ⟨by dsimp only; omega, by dsimp only; omega, Nat.succ_pos _, hlength⟩
  · have hlength : day + 1 ≤ monthLength (year + 1) (month - 9) := by
      unfold daysBeforeMonth at hday hnext
      obtain rfl | rfl : month = 10 ∨ month = 11 := by omega
      · simp [monthLength]
        omega
      · -- February is the last month of such a year.
        show _ ≤ if IsLeap (year + 1) then 29 else 28
        split
        · omega
        · rename_i hcommon
          have hlast : dayOfYear ≠ 365 := fun h => hcommon (hleap h)
          omega
    rw [hdate]
    exact ⟨by dsimp only; omega, by dsimp only; omega, Nat.succ_pos _, hlength⟩

theorem toDays_fromMarch (year : Int) {dayOfYear : Nat} (h : dayOfYear ≤ 365) :
    (fromMarch year dayOfYear).toDays = daysToMarch year + dayOfYear - epochOffset := by
  obtain ⟨month, day, hmonth, hday, -, ⟨hten, hdate⟩ | ⟨hten, hdate⟩⟩ := fromMarch_cases year h
  · rw [hdate, toDays_of_le (Nat.le_add_left ..), Nat.add_sub_cancel, Nat.add_sub_cancel, hday]
    dsimp only
    omega
  · have hearly : month - 9 < 3 := by omega
    rw [hdate, toDays_of_lt hearly, Int.add_sub_cancel, Nat.sub_add_cancel (by omega),
      Nat.add_sub_cancel, hday]
    omega

/-! ## Eras -/

/-- A day of an era, by its century, the four years of the century, the year of these, and the day
of the year. Only the last year of four has a leap day, and the last year of a century only in the
last century. -/
theorem exists_dayOfEra {day : Nat} (h : day < daysPerEra) : ∃ century cycle year dayOfYear,
    century < 4 ∧ cycle < 25 ∧ year < 4 ∧ dayOfYear ≤ 365 ∧
      (dayOfYear = 365 → year = 3 ∧ (cycle = 24 → century = 3)) ∧
      day = 36524 * century + 1461 * cycle + 365 * year + dayOfYear := by
  rw [daysPerEra] at h
  -- On the last day of an era the first quotient is one too large, and the second is one.
  have hcentury : day / 36524 - day / 146096 < 4 := by omega
  have hrest : 36524 * (day / 36524 - day / 146096) ≤ day ∧
      day - 36524 * (day / 36524 - day / 146096) ≤ 36524 ∧
        (day - 36524 * (day / 36524 - day / 146096) = 36524 →
          day / 36524 - day / 146096 = 3) := by omega
  generalize day / 36524 - day / 146096 = century at hcentury hrest
  have hcycle : (day - 36524 * century) / 1461 < 25 := by omega
  have hfour := Nat.div_add_mod (day - 36524 * century) 1461
  have hfourLt := Nat.mod_lt (day - 36524 * century) (by decide : 1461 > 0)
  generalize (day - 36524 * century) / 1461 = cycle at hcycle hfour
  generalize (day - 36524 * century) % 1461 = dayOfFour at hfour hfourLt
  exact ⟨century, cycle, min (dayOfFour / 365) 3, dayOfFour - 365 * min (dayOfFour / 365) 3,
    hcentury, hcycle, by omega, by omega, by omega, by omega⟩

/-- Centuries have 36524 days, and the last of an era has one more. -/
theorem div_century {century rest : Nat} (hcentury : century < 4) (hrest : rest ≤ 36524)
    (hlast : rest = 36524 → century = 3) :
    (36524 * century + rest) / 36524 = century + (36524 * century + rest) / 146096 := by
  rcases Nat.lt_or_eq_of_le hrest with hlt | rfl
  · rw [Nat.mul_add_div (by decide), Nat.div_eq_of_lt hlt, Nat.div_eq_of_lt (by omega)]
  · rw [hlast rfl]

/-- Four years have 1461 days, and a day that is too many for 1460 of them is made up for by one day
less of the year. -/
theorem div_cycle {century cycle year dayOfYear : Nat} (hcentury : century < 4)
    (hcycle : cycle < 25) (hyear : year < 4) (hday : dayOfYear ≤ 365)
    (hleap : dayOfYear = 365 → year = 3) : ∃ leapDay day, dayOfYear = day + leapDay ∧ day < 365 ∧
      (36524 * century + 1461 * cycle + 365 * year + dayOfYear) / 1460 =
        25 * century + cycle + leapDay := by
  have hsplit : 36524 * century + 1461 * cycle + 365 * year + dayOfYear =
      1460 * (25 * century + cycle) + (24 * century + cycle + 365 * year + dayOfYear) := by ring
  rw [hsplit, Nat.mul_add_div (by decide)]
  -- What is left over beside these cycles fills at most one more.
  rcases Nat.lt_or_ge (24 * century + cycle + 365 * year + dayOfYear) 1460 with hlt | hge
  · exact ⟨0, dayOfYear, rfl, by omega, by rw [Nat.div_eq_of_lt hlt]⟩
  · exact ⟨1, dayOfYear - 1, by omega, by omega,
      by rw [Nat.div_eq_of_lt_le (k := 1) (by omega) (by omega)]⟩

/-- The division by 365 gives the year, once the leap days up to a day are taken off. -/
theorem yearOfEra_eq {century cycle year dayOfYear : Nat} (hcentury : century < 4)
    (hcycle : cycle < 25) (hyear : year < 4) (hday : dayOfYear ≤ 365)
    (hleap : dayOfYear = 365 → year = 3 ∧ (cycle = 24 → century = 3)) :
    yearOfEra (36524 * century + 1461 * cycle + 365 * year + dayOfYear) =
      100 * century + 4 * cycle + year := by
  have hrest : 1461 * cycle + 365 * year + dayOfYear ≤ 36524 := by omega
  have hcenturies := div_century hcentury hrest fun hlast => (hleap (by omega)).2 (by omega)
  rw [← Nat.add_assoc, ← Nat.add_assoc] at hcenturies
  obtain ⟨leapDay, day, rfl, hlt, hcycles⟩ :=
    div_cycle hcentury hcycle hyear hday fun h => (hleap h).1
  have hdays : 36524 * century + 1461 * cycle + 365 * year + (day + leapDay) =
      36499 * century + 1460 * cycle + 365 * year + day + (25 * century + cycle + leapDay) := by
    ring
  have hyears : 36499 * century + 1460 * cycle + 365 * year + day + century =
      365 * (100 * century + 4 * cycle + year) + day := by ring
  rw [yearOfEra, hcycles, hcenturies, ← Nat.add_assoc, Nat.add_sub_cancel,
    Nat.sub_eq_of_eq_add hdays, hyears, Nat.mul_add_div (by decide), Nat.div_eq_of_lt hlt,
    Nat.add_zero]

/-- A day of an era lies in the year of it that is computed, which is long enough for the day. -/
theorem yearOfEra_spec {day : Nat} (h : day < daysPerEra) :
    yearOfEra day < 400 ∧ daysBeforeYear (yearOfEra day) ≤ day ∧
      day - daysBeforeYear (yearOfEra day) ≤ 365 ∧
        (day - daysBeforeYear (yearOfEra day) = 365 → IsLeap (yearOfEra day + 1)) := by
  obtain ⟨century, cycle, year, dayOfYear, hcentury, hcycle, hyear, hday, hleap, rfl⟩ :=
    exists_dayOfEra h
  rw [yearOfEra_eq hcentury hcycle hyear hday hleap]
  have hbefore : daysBeforeYear (100 * century + 4 * cycle + year) =
      36524 * century + 1461 * cycle + 365 * year := by
    unfold daysBeforeYear
    omega
  rw [hbefore, Nat.add_sub_cancel_left]
  refine ⟨by omega, Nat.le_add_right .., hday, fun hlast => ?_⟩
  unfold IsLeap
  omega

theorem ofDays_spec (days : Int) : ∃ (year : Int) (dayOfYear : Nat),
    dayOfYear ≤ 365 ∧ (dayOfYear = 365 → IsLeap (year + 1)) ∧
      days = daysToMarch year + dayOfYear - epochOffset ∧
        ofDays days = fromMarch year dayOfYear := by
  have hpos : (0 : Int) < daysPerEra := by decide
  have hsplit := Int.mul_fdiv_add_fmod (days + epochOffset) daysPerEra
  have hnonneg := Int.fmod_nonneg_of_pos (days + epochOffset) hpos
  have hlt := Int.fmod_lt_of_pos (days + epochOffset) hpos
  have hday : ((days + epochOffset).fmod daysPerEra).toNat < daysPerEra := by omega
  obtain ⟨hyear, hstarted, hday, hleap⟩ := yearOfEra_spec hday
  refine ⟨_, _, hday, fun hlast => ?_, ?_, rfl⟩
  · have hera := hleap hlast
    unfold IsLeap at hera ⊢
    omega
  · rw [daysToMarch_of_era _ hyear, Int.mul_comm]
    omega

/-! ## Dates of days -/

theorem valid_ofDays (days : Int) : (ofDays days).Valid := by
  obtain ⟨year, dayOfYear, hday, hleap, -, hdate⟩ := ofDays_spec days
  rw [hdate]
  exact valid_fromMarch hday hleap

theorem toDays_ofDays (days : Int) : (ofDays days).toDays = days := by
  obtain ⟨year, dayOfYear, hday, -, hdays, hdate⟩ := ofDays_spec days
  rw [hdate, toDays_fromMarch _ hday, ← hdays]

theorem Valid.toDays_eq {d : Date} (h : d.Valid) : d.toDays = d.daysSinceEpoch := by
  have hmonth := daysToMonth_eq d.year h.one_le_month h.month_le
  have hlong : 365 ≤ yearLength d.year := by
    unfold yearLength
    split <;> omega
  -- Whether the year has a leap day shows in the start of the next.
  have hnext := daysToYear_succ d.year
  rw [daysToYear_eq, Int.add_sub_cancel] at hnext
  rw [daysSinceEpoch, hmonth]
  by_cases hearly : d.month < 3
  · have hfirst := h.one_le_month
    rw [toDays_of_lt hearly, if_pos hearly, daysToMarch_eq, daysToYear_eq]
    unfold epochOffset daysBeforeMonth
    omega
  · rw [toDays_of_le (Nat.not_lt.1 hearly), if_neg hearly, daysToMarch_eq]
    unfold epochOffset
    omega

/-- The date of a day is a date of the calendar, and as many days away from 1 January 1970. -/
theorem daysSinceEpoch_ofDays (days : Int) : (ofDays days).daysSinceEpoch = days := by
  rw [← (valid_ofDays days).toDays_eq, toDays_ofDays]

end Repl.Log.Date
