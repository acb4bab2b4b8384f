import Repl.Log.Logger
import Repl.Proofs.Log.Calendar
import Repl.Proofs.Text.Lines
import Repl.Proofs.Value.Integer

/-!
The times in log lines. A line opens with a date and a time of day, in digits. Read back by the
calendar they are the time of the entry in whole seconds, where what is left of a second is cut off
towards the start of 1970.
-/

namespace Repl

/-! ## Numbers in decimal -/

namespace Text

theorem decimal_eq (n : Nat) :
    decimal n = (if n < 10 then [] else decimal (n / 10)) ++ [(48 + n % 10).toUInt8] := by
  have hdigit : ∀ d < 10, d.digitChar.toNat.toUInt8 = (48 + d).toUInt8 := by decide
  rw [decimal, Nat.toDigits_eq_if (by decide)]
  split
  · rename_i hlt
    rw [Nat.mod_eq_of_lt hlt, ← hdigit n hlt]
    rfl
  · rw [List.map_append, ← hdigit (n % 10) (Nat.mod_lt _ (by decide))]
    rfl

theorem digits_decimal (n : Nat) : Literal.Digits (decimal n) ∧ Literal.number (decimal n) = n := by
  have hdigit : ∀ d < 10, Literal.isDigit (48 + d).toUInt8 = true ∧
      (48 + d).toUInt8.toNat - Ascii.zero.toNat = d := by decide
  induction n using Nat.strongRecOn with
  | ind n ih =>
    obtain ⟨hlast, hvalue⟩ := hdigit (n % 10) (Nat.mod_lt _ (by decide))
    rw [decimal_eq]
    split
    · rename_i hlt
      rw [List.nil_append]
      refine ⟨⟨List.cons_ne_nil _ _, List.forall_mem_singleton.2 hlast⟩, ?_⟩
      rw [← List.nil_append [_], Literal.number_concat, hvalue, Nat.mod_eq_of_lt hlt]
      exact Nat.zero_add n
    · -- The digits in front of the last are those of the tens.
      obtain ⟨⟨-, hdigits⟩, hnumber⟩ := ih (n / 10) (by omega)
      refine ⟨⟨by simp, ?_⟩, ?_⟩
      · intro d hd
        obtain hd | rfl := mem_concat_iff.1 hd
        · exact hdigits d hd
        · exact hlast
      · rw [Literal.number_concat, hnumber, hvalue, Nat.div_add_mod']

theorem number_replicate_zero_append (k : Nat) (digits : Bytes) :
    Literal.number (List.replicate k Ascii.zero ++ digits) = Literal.number digits := by
  induction digits using List.reverseRecOn with
  | nil =>
    rw [List.append_nil]
    induction k with
    | zero => rfl
    | succ k ih => rw [List.replicate_succ', Literal.number_concat, ih]; rfl
  | append_singleton digits d ih =>
    rw [← List.append_assoc, Literal.number_concat, Literal.number_concat, ih]

/-- A number in a field of a fixed width, with zeros in front. -/
structure IsField (width n : Nat) (s : Bytes) : Prop where
  length : s.length = width
  digits : Literal.Digits s
  number : Literal.number s = n

theorem isField_decimalPadded {width n : Nat} (hwidth : 0 < width) (h : n < 10 ^ width) :
    IsField width n (decimalPadded width n) where
  length := by
    have hle : (decimal n).length ≤ width := by
      rw [decimal, List.length_map]
      exact (Nat.length_toDigits_le_iff (by decide) hwidth).2 h
    rw [decimalPadded, List.length_append, List.length_replicate, Nat.sub_add_cancel hle]
  digits := by
    obtain ⟨⟨hne, hdigits⟩, -⟩ := digits_decimal n
    refine ⟨List.append_ne_nil_of_right_ne_nil _ hne, fun d hd => ?_⟩
    obtain hzero | hd := List.mem_append.1 hd
    · rw [(List.mem_replicate.1 hzero).2]
      rfl
    · exact hdigits d hd
  number := by
    rw [decimalPadded, number_replicate_zero_append]
    exact (digits_decimal n).2

end Text

namespace Log

/-! ## Years of the clock -/

namespace Date

theorem monthLength_le (year : Int) (month : Nat) : monthLength year month ≤ 31 := by
  unfold monthLength
  split
  · split <;> decide
  all_goals decide

/-- The start of a year is not far from any of its dates. -/
theorem Valid.near_year {d : Date} (h : d.Valid) :
    daysToYear d.year ≤ d.daysSinceEpoch ∧ d.daysSinceEpoch ≤ daysToYear d.year + 366 := by
  have hmonth : daysToMonth d.year d.month ≤ 336 := by
    have hlong : yearLength d.year ≤ 366 := by
      unfold yearLength
      split <;> decide
    have hlast := h.month_le
    rw [daysToMonth_eq d.year h.one_le_month hlast]
    unfold daysBeforeMonth
    split <;> omega
  have hday := h.day_le.trans (monthLength_le d.year d.month)
  unfold daysSinceEpoch
  omega

/-- The days of more than eight thousand years have years of four digits. -/
theorem year_ofDays {days : Int} (hfrom : -719000 ≤ days) (hto : days ≤ 2932000) :
    0 ≤ (ofDays days).year ∧ (ofDays days).year < 10000 := by
  have hnear := (valid_ofDays days).near_year
  rw [daysSinceEpoch_ofDays, daysToYear_eq] at hnear
  omega

end Date

namespace Timestamp

/-- A clock that counts nanoseconds in 64 bits can show the time. -/
def Representable (t : Timestamp) : Prop :=
  -(2 ^ 63) ≤ t.milliseconds * 1000000 ∧ t.milliseconds * 1000000 < 2 ^ 63

instance (t : Timestamp) : Decidable t.Representable :=
  inferInstanceAs (Decidable (_ ∧ _))

/-- The time is the start of its date and a part of a day. -/
theorem seconds_eq (t : Timestamp) :
    t.seconds = t.date.daysSinceEpoch * 86400 + t.secondOfDay ∧ t.secondOfDay < 86400 := by
  have hsplit := Int.mul_fdiv_add_fmod t.seconds 86400
  have hnonneg := Int.fmod_nonneg_of_pos t.seconds (b := 86400) (by decide)
  have hlt := Int.fmod_lt_of_pos t.seconds (b := 86400) (by decide)
  rw [date, Date.daysSinceEpoch_ofDays, secondOfDay]
  omega

theorem Representable.year {t : Timestamp} (h : t.Representable) :
    0 ≤ t.date.year ∧ t.date.year < 10000 := by
  -- Less than 293 years on both sides of 1970, far inside the years of four digits.
  have hseconds : -9223372037 < t.seconds ∧ t.seconds < 9223372037 := by
    have hsign : Int.sign 1000 = 1 := rfl
    unfold Representable at h
    rw [seconds, Int.tdiv_eq_ediv, hsign]
    omega
  have hdays : -719000 ≤ t.seconds.fdiv 86400 ∧ t.seconds.fdiv 86400 ≤ 2932000 := by
    rw [Int.fdiv_eq_ediv_of_nonneg _ (by decide)]
    omega
  exact Date.year_ofDays hdays.1 hdays.2

end Timestamp

/-! ## Date and time in a line -/

/-- A date and a time of day, as they are written. -/
structure Stamp where
  year : Bytes
  month : Bytes
  day : Bytes
  hour : Bytes
  minute : Bytes
  second : Bytes

namespace Stamp

open Literal (number)

/-- The text of the form `[YYYY-MM-DD HH:MM:SS] `. -/
def text (s : Stamp) : Bytes :=
  ascii "[" ++ s.year ++ ascii "-" ++ s.month ++ ascii "-" ++ s.day ++ ascii " " ++ s.hour ++
    ascii ":" ++ s.minute ++ ascii ":" ++ s.second ++ ascii "] "

def date (s : Stamp) : Date :=
  ⟨number s.year, number s.month, number s.day⟩

/-- The seconds from the start of 1970 to the time that is written. -/
def seconds (s : Stamp) : Int :=
  s.date.daysSinceEpoch * 86400 + number s.hour * 3600 + number s.minute * 60 + number s.second

/-- A date of the calendar and a time of day, in digits. -/
structure WellFormed (s : Stamp) : Prop where
  year : s.year.length = 4 ∧ Literal.Digits s.year
  pairs : ∀ field ∈ [s.month, s.day, s.hour, s.minute, s.second],
    field.length = 2 ∧ Literal.Digits field
  date : s.date.Valid
  hour : number s.hour < 24
  minute : number s.minute < 60
  second : number s.second < 60

end Stamp

/-- The fields of a line are those of the date and of the time of day. -/
def Timestamp.stamp (t : Timestamp) : Stamp where
  year := Text.decimalPadded 4 t.date.year.toNat
  month := Text.decimalPadded 2 t.date.month
  day := Text.decimalPadded 2 t.date.day
  hour := Text.decimalPadded 2 (t.secondOfDay / 3600)
  minute := Text.decimalPadded 2 (t.secondOfDay / 60 % 60)
  second := Text.decimalPadded 2 (t.secondOfDay % 60)

theorem stamp_prefix_line (t : Timestamp) (e : Entry) : t.stamp.text <+: Logger.line t e := by
  refine ⟨ascii "[" ++ e.level.name ++ ascii "] [" ++ e.category ++ ascii "] " ++ e.message, ?_⟩
  have hbrackets : ascii "] [" = ascii "] " ++ ascii "[" := by decide
  rw [Logger.line, Stamp.text, Timestamp.render]
  simp only [hbrackets, List.append_assoc]
  rfl

theorem Date.Valid.fields {d : Date} (h : d.Valid) (hyear : 0 ≤ d.year ∧ d.year < 10000) :
    Text.IsField 4 d.year.toNat (Text.decimalPadded 4 d.year.toNat) ∧
      Text.IsField 2 d.month (Text.decimalPadded 2 d.month) ∧
        Text.IsField 2 d.day (Text.decimalPadded 2 d.day) := by
  have hmonth := h.month_le
  have hday := h.day_le.trans (monthLength_le d.year d.month)
  refine ⟨Text.isField_decimalPadded (by decide) ?_, Text.isField_decimalPadded (by decide) ?_,
    Text.isField_decimalPadded (by decide) ?_⟩ <;> omega

/-- Every line of the log opens with a date and a time of day, which are the time of the entry: read
by the calendar, they are as many seconds away from the start of 1970 as its milliseconds make,
where a part of a second is dropped. -/
theorem line_tells_time {t : Timestamp} (h : t.Representable) (e : Entry) :
    ∃ s : Stamp, s.WellFormed ∧ s.text <+: Logger.line t e ∧
      s.seconds = t.milliseconds.tdiv 1000 := by
  have hvalid : t.date.Valid := Date.valid_ofDays _
  obtain ⟨hseconds, hbound⟩ := t.seconds_eq
  have hyear : Text.IsField 4 t.date.year.toNat t.stamp.year := (hvalid.fields h.year).1
  have hmonth : Text.IsField 2 t.date.month t.stamp.month := (hvalid.fields h.year).2.1
  have hday : Text.IsField 2 t.date.day t.stamp.day := (hvalid.fields h.year).2.2
  have hhour : Text.IsField 2 (t.secondOfDay / 3600) t.stamp.hour :=
    Text.isField_decimalPadded (by decide) (by omega)
  have hminute : Text.IsField 2 (t.secondOfDay / 60 % 60) t.stamp.minute :=
    Text.isField_decimalPadded (by decide) (by omega)
  have hsecond : Text.IsField 2 (t.secondOfDay % 60) t.stamp.second :=
    Text.isField_decimalPadded (by decide) (by omega)
  have hdate : t.stamp.date = t.date := by
    rw [Stamp.date, hyear.number, hmonth.number, hday.number, Int.toNat_of_nonneg h.year.1]
  refine ⟨t.stamp, ?_, stamp_prefix_line t e, ?_⟩
  · constructor
    case year => exact ⟨hyear.length, hyear.digits⟩
    case pairs =>
      simp only [List.forall_mem_cons]
      exact ⟨⟨hmonth.length, hmonth.digits⟩, ⟨hday.length, hday.digits⟩,
        ⟨hhour.length, hhour.digits⟩, ⟨hminute.length, hminute.digits⟩,
        ⟨hsecond.length, hsecond.digits⟩, List.forall_mem_nil _⟩
    case date => rwa [hdate]
    case hour => rw [hhour.number]; omega
    case minute => rw [hminute.number]; omega
    case second => rw [hsecond.number]; omega
  · rw [Stamp.seconds, hdate, hhour.number, hminute.number, hsecond.number]
    show _ = t.seconds
    omega

/-- The millisecond before the first of March 1900, when no leap day came between, is shown as the
start of that day. -/
theorem march_1900_line_tells_time :
    let t : Timestamp := ⟨-2203891200001⟩
    let line := ascii "[1900-03-01 00:00:00] [INFO] [core] Started"
    t.Representable ∧ Logger.line t ⟨.info, ascii "core", ascii "Started"⟩ = line ∧
      ∃ s : Stamp, s.WellFormed ∧ s.text <+: line ∧ s.seconds = -2203891200 := by
  intro t line
  have hrepresentable : t.Representable := by decide
  have hline : Logger.line t ⟨.info, ascii "core", ascii "Started"⟩ = line := by decide
  have htime := line_tells_time hrepresentable ⟨.info, ascii "core", ascii "Started"⟩
  rw [hline] at htime
  exact ⟨hrepresentable, hline, htime⟩

end Log

end Repl
