import Mathlib.Order.Basic
import Mathlib.Tactic.Common
import Mathlib.Algebra.GroupWithZero.Nat

/-!
# Dates in universal time

The date part of ECMAScript's `Date`: a time value counts milliseconds from the start of 1970, a
day number counts days, and years and months are found from the number of the day on which a year
begins. Years, months and days are intervals of time values (`month_eq_of_between`,
`day_eq_of_between`).
-/

namespace Calendar

/-- Milliseconds of a day. -/
def msPerDay : Int := 86400000

/-- The number of the day that a time value lies in. -/
def day (time : Int) : Int :=
  time / msPerDay

/-! ## Years -/

/-- The number of the first day of a year. -/
def dayFromYear (year : Int) : Int :=
  365 * (year - 1970) + (year - 1969) / 4 - (year - 1901) / 100 + (year - 1601) / 400

/-- The year of a day. The average length of a year gives it up to one. -/
def yearFromDay (day : Int) : Int :=
  let year := 1970 + 400 * day / 146097
  if day < dayFromYear year then year - 1
  else if dayFromYear (year + 1) ≤ day then year + 1
  else year

/-- Years in order begin in order. -/
theorem dayFromYear_le {x y : Int} (h : x ≤ y) : dayFromYear x ≤ dayFromYear y := by
  unfold dayFromYear
  omega

/-- A year has begun on its days. -/
theorem dayFromYear_yearFromDay (d : Int) : dayFromYear (yearFromDay d) ≤ d := by
  unfold yearFromDay
  dsimp only
  split
  · unfold dayFromYear
    omega
  · split <;> omega

/-- The next year has not begun on the days of a year. -/
theorem lt_dayFromYear_succ (d : Int) : d < dayFromYear (yearFromDay d + 1) := by
  unfold yearFromDay
  dsimp only
  split
  · rename_i h
    rwa [Int.sub_add_cancel]
  · split
    · unfold dayFromYear
      omega
    · omega

/-- The year of a day is not before that of an earlier day. -/
theorem yearFromDay_mono {d e : Int} (h : d ≤ e) : yearFromDay d ≤ yearFromDay e := by
  by_contra hlt
  have hnext : yearFromDay e + 1 ≤ yearFromDay d := by omega
  have hyears := dayFromYear_le hnext
  have hd := dayFromYear_yearFromDay d
  have he := lt_dayFromYear_succ e
  omega

/-! ## Months -/

/-- The number of leap days of a year. -/
def leapDays (year : Int) : Int :=
  dayFromYear (year + 1) - dayFromYear year - 365

/-- The first day of a month within its year, for a month from 0 to 11. -/
def monthStart (leap : Int) (month : Int) : Int :=
  match month with
  | 0 => 0
  | 1 => 31
  | 2 => 59 + leap
  | 3 => 90 + leap
  | 4 => 120 + leap
  | 5 => 151 + leap
  | 6 => 181 + leap
  | 7 => 212 + leap
  | 8 => 243 + leap
  | 9 => 273 + leap
  | 10 => 304 + leap
  | _ => 334 + leap

/-- The month, from 0 to 11, of a day within a year: how many of the later months have begun. -/
def monthFromDayWithinYear (leap dayWithinYear : Int) : Int :=
  ([1, 2, 3, 4, 5, 6, 7, 8, 9, 10, 11].countP fun month =>
    decide (monthStart leap month ≤ dayWithinYear) : Nat)

/-- `getUTCFullYear`. -/
def utcFullYear (time : Int) : Int :=
  yearFromDay (day time)

/-- The day within its year that a time value lies in, from 0. -/
def dayWithinYear (time : Int) : Int :=
  day time - dayFromYear (utcFullYear time)

/-- `getUTCMonth`. -/
def utcMonth (time : Int) : Int :=
  monthFromDayWithinYear (leapDays (utcFullYear time)) (dayWithinYear time)

/-- `getUTCDate`. -/
def utcDate (time : Int) : Int :=
  dayWithinYear time - monthStart (leapDays (utcFullYear time)) (utcMonth time) + 1

/-- The year and the month of a time value. -/
def month (time : Int) : Int × Int :=
  (utcFullYear time, utcMonth time)

/-- The month of a day is not before that of an earlier day of the year. -/
theorem monthFromDayWithinYear_mono (leap : Int) {d e : Int} (h : d ≤ e) :
    monthFromDayWithinYear leap d ≤ monthFromDayWithinYear leap e := by
  unfold monthFromDayWithinYear
  apply Int.ofNat_le.2
  apply List.countP_mono_left
  intro m _ hm
  exact decide_eq_true (Int.le_trans (of_decide_eq_true hm) h)

variable {s t : Int} {time : Int}

/-- The day of a time value is not before that of an earlier one. -/
theorem day_mono (h : s ≤ t) : day s ≤ day t := by
  unfold day msPerDay
  omega

/-- The year of a time value is not before that of an earlier one. -/
theorem utcFullYear_mono (h : s ≤ t) : utcFullYear s ≤ utcFullYear t :=
  yearFromDay_mono (day_mono h)

/-- The month of a time value is not before that of an earlier one of the same year. -/
theorem utcMonth_mono (h : s ≤ t) (hyear : utcFullYear s = utcFullYear t) :
    utcMonth s ≤ utcMonth t := by
  unfold utcMonth dayWithinYear
  rw [hyear]
  exact monthFromDayWithinYear_mono _ (Int.sub_le_sub_right (day_mono h) _)

/-! ## Periods are intervals -/

/-- Between two moments of a day there is only that day. -/
theorem day_eq_of_between {r s t : Int} (hrs : r ≤ s) (hst : s ≤ t) (h : day r = day t) :
    day s = day t :=
  Int.le_antisymm (day_mono hst) (h ▸ day_mono hrs)

/-- Between two moments of a month there is only that month. -/
theorem month_eq_of_between {r s t : Int} (hrs : r ≤ s) (hst : s ≤ t) (h : month r = month t) :
    month s = month t := by
  obtain ⟨hyear, hmonth⟩ := Prod.mk.inj h
  have hsyear : utcFullYear s = utcFullYear t :=
    Int.le_antisymm (utcFullYear_mono hst) (hyear ▸ utcFullYear_mono hrs)
  have hsmonth : utcMonth s = utcMonth t :=
    Int.le_antisymm (utcMonth_mono hst hsyear)
      (hmonth ▸ utcMonth_mono hrs (hyear.trans hsyear.symm))
  exact Prod.ext hsyear hsmonth

/-! ## Time values from dates -/

/-- `Date.UTC` of a year, a month and a day of the month, each possibly out of its range. Years
from 0 to 99 stand for the twentieth century. -/
def utc (year month date : Int) : Int :=
  let fullYear := if 0 ≤ year ∧ year ≤ 99 then 1900 + year else year
  let carried := fullYear + month / 12
  (dayFromYear carried + monthStart (leapDays carried) (month % 12) + (date - 1)) * msPerDay

/-! ## Texts -/

/-- `padStart` with zeros of the digits of a number of at most `width` digits. -/
def digits : Nat → Nat → List Char
  | 0, _ => []
  | width + 1, n => digits width (n / 10) ++ [(n % 10).digitChar]

/-- The years that a text shows in four digits. -/
def isShort (year : Int) : Prop :=
  0 ≤ year ∧ year ≤ 9999

instance (year : Int) : Decidable (isShort year) :=
  inferInstanceAs (Decidable (_ ∧ _))

/-- The year in a date text: four digits, or a sign and six digits. -/
def yearText (year : Int) : List Char :=
  if isShort year then digits 4 year.toNat
  else (if 0 ≤ year then '+' else '-') :: digits 6 year.natAbs

/-- The month in a date text. -/
def monthText (time : Int) : List Char :=
  digits 2 (utcMonth time + 1).toNat

/-- The date in `toISOString`. -/
def dateText (time : Int) : List Char :=
  yearText (utcFullYear time) ++ '-' :: monthText time ++ '-' :: digits 2 (utcDate time).toNat

/-- The time of day in `toISOString`. -/
def timeText (time : Int) : List Char :=
  let ms := (time % msPerDay).toNat
  'T' :: digits 2 (ms / 3600000) ++ ':' :: digits 2 (ms / 60000 % 60) ++ ':' ::
    digits 2 (ms / 1000 % 60) ++ '.' :: digits 3 (ms % 1000) ++ ['Z']

/-- The characters of `toISOString`. -/
def isoText (time : Int) : List Char :=
  dateText time ++ timeText time

/-- `toISOString`. -/
def toISOString (time : Int) : String :=
  String.ofList (isoText time)

example : toISOString 951827696789 = "2000-02-29T12:34:56.789Z" := by decide +kernel

/-- The time values that a `Date` can hold. -/
def IsTimeValue (time : Int) : Prop :=
  -8640000000000000 ≤ time ∧ time ≤ 8640000000000000

instance (time : Int) : Decidable (IsTimeValue time) :=
  inferInstanceAs (Decidable (_ ∧ _))

/-! ### Digits -/

/-- Padded digits have their width. -/
@[simp] theorem length_digits (width n : Nat) : (digits width n).length = width := by
  induction width generalizing n with
  | zero => rfl
  | succ width ih => simp [digits, ih]

/-- The digits of a number determine it. -/
theorem digits_inj {width m n : Nat} (hm : m < 10 ^ width) (hn : n < 10 ^ width)
    (h : digits width m = digits width n) : m = n := by
  induction width generalizing m n with
  | zero => omega
  | succ width ih =>
    rw [Nat.pow_succ] at hm hn
    obtain ⟨hinit, hlast⟩ := List.append_inj h (by simp)
    have hquotient : m / 10 = n / 10 := ih (by omega) (by omega) hinit
    have hdigit := congrArg Char.toNat (List.cons.inj hlast).1
    rw [Nat.toNat_digitChar_of_lt_ten (Nat.mod_lt _ (by decide)),
      Nat.toNat_digitChar_of_lt_ten (Nat.mod_lt _ (by decide))] at hdigit
    omega

/-- The digits of a number are no sign. -/
theorem digits_head (width n : Nat) : ∀ c ∈ digits width n, 48 ≤ c.toNat := by
  induction width generalizing n with
  | zero => exact fun c hc => absurd hc List.not_mem_nil
  | succ width ih =>
    intro c hc
    rcases List.mem_append.1 hc with hc | hc
    · exact ih _ c hc
    · rw [List.mem_singleton.1 hc, Nat.toNat_digitChar_of_lt_ten (Nat.mod_lt _ (by decide))]
      omega

/-! ### What a text determines -/

/-- The date depends on the day only. -/
theorem dateText_congr (h : day s = day t) : dateText s = dateText t := by
  unfold dateText monthText utcDate utcMonth dayWithinYear utcFullYear
  rw [h]

/-- A month is one of the twelve. -/
theorem utcMonth_bounds (time : Int) : 0 ≤ utcMonth time ∧ utcMonth time ≤ 11 := by
  unfold utcMonth monthFromDayWithinYear
  constructor
  · exact Int.natCast_nonneg _
  · exact Int.ofNat_le.2 List.countP_le_length

/-- The month in a text determines the month. -/
theorem utcMonth_of_monthText (h : monthText s = monthText t) : utcMonth s = utcMonth t := by
  have hs := utcMonth_bounds s
  have ht := utcMonth_bounds t
  have hmonth := digits_inj (by omega) (by omega) h
  omega

/-- Days of a month are counted from 1 to 31. -/
theorem date_bounds : ∀ leap : Fin 2, ∀ d : Fin 366, d.val < 365 + leap.val →
    let start := monthStart leap.val (monthFromDayWithinYear leap.val d.val)
    start ≤ d.val ∧ d.val ≤ start + 30 := by
  decide +kernel

/-- A date is one of at most 31. -/
theorem utcDate_bounds (time : Int) : 1 ≤ utcDate time ∧ utcDate time ≤ 31 := by
  have hfirst := dayFromYear_yearFromDay (day time)
  have hnext := lt_dayFromYear_succ (day time)
  have hleap : 0 ≤ leapDays (utcFullYear time) ∧ leapDays (utcFullYear time) ≤ 1 := by
    unfold leapDays dayFromYear
    omega
  have hbounds := date_bounds ⟨(leapDays (utcFullYear time)).toNat, by omega⟩
    ⟨(dayWithinYear time).toNat, by unfold dayWithinYear leapDays utcFullYear at *; omega⟩
  have hday : ((dayWithinYear time).toNat : Int) = dayWithinYear time :=
    Int.toNat_of_nonneg (by unfold dayWithinYear utcFullYear; omega)
  have hleapDays : ((leapDays (utcFullYear time)).toNat : Int) = leapDays (utcFullYear time) :=
    Int.toNat_of_nonneg hleap.1
  have hlt : (dayWithinYear time).toNat < 365 + (leapDays (utcFullYear time)).toNat := by
    unfold dayWithinYear leapDays utcFullYear at *
    omega
  have hdate := hbounds hlt
  dsimp only at hdate
  rw [hday, hleapDays] at hdate
  unfold utcDate utcMonth
  omega

/-- The year of a time value has at most six digits. -/
theorem utcFullYear_bounds (h : IsTimeValue time) :
    -999999 ≤ utcFullYear time ∧ utcFullYear time ≤ 999999 := by
  obtain ⟨hleast, hgreatest⟩ := h
  have hlow : (-271821 : Int) ≤ utcFullYear time := utcFullYear_mono hleast
  have hhigh : utcFullYear time ≤ 275760 := utcFullYear_mono hgreatest
  omega

/-- The year in a text determines the year. -/
theorem yearText_inj {y z : Int} (hy : -999999 ≤ y ∧ y ≤ 999999) (hz : -999999 ≤ z ∧ z ≤ 999999)
    (h : yearText y = yearText z) : y = z := by
  unfold yearText at h
  by_cases hshort : isShort y <;> by_cases hshort' : isShort z
  · rw [if_pos hshort, if_pos hshort'] at h
    unfold isShort at hshort hshort'
    have hnumber := digits_inj (by omega) (by omega) h
    omega
  · rw [if_pos hshort, if_neg hshort'] at h
    have hlength := congrArg List.length h
    simp at hlength
  · rw [if_neg hshort, if_pos hshort'] at h
    have hlength := congrArg List.length h
    simp at hlength
  · rw [if_neg hshort, if_neg hshort'] at h
    obtain ⟨hsign, hdigits⟩ := List.cons.inj h
    have hnumber := digits_inj (by omega) (by omega) hdigits
    -- The sign tells two years of one magnitude apart.
    split at hsign <;> split at hsign
    · omega
    · cases hsign
    · cases hsign
    · omega

/-- The ten first characters of the text of a date with a short year are the date. -/
theorem take_isoText_of_short (h : isShort (utcFullYear time)) :
    (isoText time).take 10 = dateText time := by
  have hlength : (dateText time).length = 10 := by
    unfold dateText yearText monthText
    rw [if_pos h]
    simp
  unfold isoText
  rw [List.take_append_of_le_length (Nat.le_of_eq hlength.symm), List.take_of_length_le (by omega)]

/-- The ten first characters of the text of any other date are its year and its month. -/
theorem take_isoText_of_long (h : ¬ isShort (utcFullYear time)) :
    (isoText time).take 10 = yearText (utcFullYear time) ++ '-' :: monthText time := by
  have hlength : (yearText (utcFullYear time) ++ '-' :: monthText time).length = 10 := by
    unfold yearText monthText
    rw [if_neg h]
    simp
  unfold isoText dateText
  rw [List.append_assoc, List.take_append_of_le_length (Nat.le_of_eq hlength.symm), List.take_of_length_le (by omega)]

/-- A short year begins with a digit and any other year with a sign. -/
theorem short_of_take_isoText (h : (isoText s).take 10 = (isoText t).take 10)
    (hshort : isShort (utcFullYear s)) : isShort (utcFullYear t) := by
  by_contra hlong
  rw [take_isoText_of_short hshort, take_isoText_of_long hlong] at h
  unfold dateText yearText at h
  rw [if_pos hshort, if_neg hlong] at h
  obtain ⟨digit, rest, hdigits⟩ : ∃ c rest, digits 4 (utcFullYear s).toNat = c :: rest := by
    cases hdigits : digits 4 (utcFullYear s).toNat with
    | nil => exact absurd (congrArg List.length hdigits) (by simp)
    | cons c rest => exact ⟨c, rest, rfl⟩
  have hdigit := digits_head 4 _ digit (hdigits ▸ List.mem_cons_self)
  rw [hdigits] at h
  have hsign := (List.cons.inj h).1
  rw [hsign] at hdigit
  split at hdigit <;> exact absurd hdigit (by decide)

/-- The ten first characters of a date text stay the same between two times that share them. -/
theorem take_isoText_eq_of_between {r s t : Int} (hr : IsTimeValue r) (ht : IsTimeValue t)
    (hrs : r ≤ s) (hst : s ≤ t) (h : (isoText r).take 10 = (isoText t).take 10) :
    (isoText s).take 10 = (isoText t).take 10 := by
  have hry := utcFullYear_bounds hr
  have hty := utcFullYear_bounds ht
  by_cases hshort : isShort (utcFullYear r)
  · -- The characters are a date, which determines the day.
    have hshort' := short_of_take_isoText h hshort
    rw [take_isoText_of_short hshort, take_isoText_of_short hshort'] at h
    unfold dateText at h
    obtain ⟨hmonths, hdate⟩ := List.append_inj' h (by simp)
    obtain ⟨hyear, hmonth⟩ := List.append_inj' hmonths (by simp [monthText])
    have hyears := yearText_inj hry hty hyear
    have hmonths := utcMonth_of_monthText (List.cons.inj hmonth).2
    have hrdate := utcDate_bounds r
    have htdate := utcDate_bounds t
    have hdates := digits_inj (by omega) (by omega) (List.cons.inj hdate).2
    have hday : day r = day t := by
      unfold utcDate dayWithinYear at hdates hrdate htdate
      rw [hyears, hmonths] at hdates hrdate
      omega
    have hsame := day_eq_of_between hrs hst hday
    have hsyear : utcFullYear s = utcFullYear t := congrArg yearFromDay hsame
    rw [take_isoText_of_short hshort', take_isoText_of_short (hsyear ▸ hshort')]
    exact dateText_congr hsame
  · -- The characters are a year and a month.
    have hlong : ¬ isShort (utcFullYear t) :=
      fun hshort' => hshort (short_of_take_isoText h.symm hshort')
    rw [take_isoText_of_long hshort, take_isoText_of_long hlong] at h
    obtain ⟨hyear, hmonth⟩ := List.append_inj' h (by simp [monthText])
    have hsame := month_eq_of_between hrs hst
      (Prod.ext (yearText_inj hry hty hyear) (utcMonth_of_monthText (List.cons.inj hmonth).2))
    obtain ⟨hsyear, hsmonth⟩ := Prod.mk.inj hsame
    rw [take_isoText_of_long hlong, take_isoText_of_long (hsyear ▸ hlong), hsyear]
    unfold monthText
    rw [hsmonth]

end Calendar
