import CinemaLoyalty.Calendar
import Mathlib.Data.Int.Interval
import Mathlib.Tactic.NormNum

/-! @svc Dates | layer:property | source:src/loyalty/utils/utc-local-date.util.ts, src/loyalty/loyalty-calculator.service.ts (addYears)

    The calendar of the proleptic Gregorian dates: the fields of a day are a valid date, valid dates
    and days correspond one to one, and the correspondence keeps the order. -/

namespace CinemaLoyalty

/-- 29 February exists. -/
def isLeapYear (year : ℤ) : Bool :=
  decide (year % 4 = 0) && (decide (year % 100 ≠ 0) || decide (year % 400 = 0))

/-- The length of a month. -/
def daysInMonth (year month : ℤ) : ℤ :=
  if month = 2 then (if isLeapYear year then 29 else 28)
  else if month = 4 ∨ month = 6 ∨ month = 9 ∨ month = 11 then 30
  else 31

/-- The fields name a day of the calendar. -/
structure CivilDate.Valid (c : CivilDate) : Prop where
  month_pos : 1 ≤ c.month
  month_le : c.month ≤ 12
  day_pos : 1 ≤ c.day
  day_le : c.day ≤ daysInMonth c.year c.month

/-- Earlier in the calendar. -/
def CivilDate.Before (a b : CivilDate) : Prop :=
  a.year < b.year ∨ a.year = b.year ∧ (a.month < b.month ∨ a.month = b.month ∧ a.day < b.day)

/-- The day of a date, counted from the epoch. -/
def CivilDate.days (c : CivilDate) : ℤ := daysFromCivil c.year c.month c.day

/-! ### Years from March to February -/

/-- Days from 1 March of the year 0 to 1 March of a year. -/
def yearStart (y : ℤ) : ℤ := 365 * y + y / 4 - y / 100 + y / 400

/-- The months from March to a month. -/
def marchMonth (month : ℤ) : ℤ := if month > 2 then month - 3 else month + 9

/-- Days from 1 March to the first of a month. -/
def monthStart (month : ℤ) : ℤ := (153 * marchMonth month + 2) / 5

/-- The year from March to February a month lies in. -/
def marchYear (year month : ℤ) : ℤ := if month ≤ 2 then year - 1 else year

theorem yearStart_mono {a b : ℤ} (h : a ≤ b) : yearStart a ≤ yearStart b := by
  unfold yearStart
  omega

/-- A year from March to February ends with the February of the next calendar year. -/
theorem yearStart_leap {y : ℤ} (h : isLeapYear (y + 1) = true) :
    yearStart (y + 1) = yearStart y + 366 := by
  simp only [isLeapYear, Bool.and_eq_true, Bool.or_eq_true, decide_eq_true_eq] at h
  unfold yearStart
  omega

theorem yearStart_common {y : ℤ} (h : isLeapYear (y + 1) = false) :
    yearStart (y + 1) = yearStart y + 365 := by
  simp only [isLeapYear, Bool.and_eq_false_iff, Bool.or_eq_false_iff, decide_eq_false_iff_not] at h
  unfold yearStart
  omega

theorem daysFromCivil_eq (year month day : ℤ) : daysFromCivil year month day =
    yearStart (marchYear year month) + monthStart month + (day - 1) - 719468 := by
  have hera : ∀ y : ℤ, y / 400 * 146097 + ((y - y / 400 * 400) * 365 + (y - y / 400 * 400) / 4 -
      (y - y / 400 * 400) / 100) = yearStart y := fun y => by
    unfold yearStart
    omega
  have h := hera (marchYear year month)
  unfold daysFromCivil monthStart marchMonth
  rw [← h]
  unfold marchYear
  simp only
  omega

/-! ### The year of a day -/

/-- The year of a day in its era of 400 years, as `civilFromDays` computes it. -/
def yearOfEra (doe : ℤ) : ℤ := (doe - doe / 1460 + doe / 36524 - doe / 146096) / 365

theorem yearOfEra_mono {a b : ℤ} (hab : a ≤ b) : yearOfEra a ≤ yearOfEra b := by
  have hle : a - a / 1460 + a / 36524 - a / 146096 ≤ b - b / 1460 + b / 36524 - b / 146096 := by
    omega
  exact Int.ediv_le_ediv (by decide) hle

theorem yearOfEra_first : ∀ y < 400, yearOfEra (yearStart (y : ℕ)) = (y : ℕ) := by decide +kernel

theorem yearOfEra_last : ∀ y < 400, yearOfEra (yearStart ((y : ℕ) + 1) - 1) = (y : ℕ) := by
  decide +kernel

/-- A day lies in one of the years before a later day. -/
theorem year_of_day {doe : ℤ} (h₀ : 0 ≤ doe) (n : ℕ) (h : doe < yearStart n) :
    ∃ y < n, yearStart (y : ℕ) ≤ doe ∧ doe < yearStart ((y : ℕ) + 1) := by
  induction n with
  | zero => exact absurd h (not_lt.2 h₀)
  | succ n ih =>
    by_cases hn : doe < yearStart n
    · obtain ⟨y, hy, hin⟩ := ih hn
      exact ⟨y, Nat.lt_succ_of_lt hy, hin⟩
    · exact ⟨n, Nat.lt_succ_self n, Int.not_lt.1 hn, by exact_mod_cast h⟩

/-- The computed year is the one the day lies in. -/
theorem yearOfEra_spec {doe : ℤ} (h₀ : 0 ≤ doe) (h₁ : doe < 146097) :
    0 ≤ yearOfEra doe ∧ yearOfEra doe < 400 ∧ yearStart (yearOfEra doe) ≤ doe ∧
      doe < yearStart (yearOfEra doe + 1) := by
  obtain ⟨y, hy, hlo, hhi⟩ := year_of_day h₀ 400 h₁
  have hle := yearOfEra_mono hlo
  have hge := yearOfEra_mono (show doe ≤ yearStart ((y : ℕ) + 1) - 1 by omega)
  rw [yearOfEra_first y hy] at hle
  rw [yearOfEra_last y hy] at hge
  obtain heq : yearOfEra doe = (y : ℕ) := le_antisymm hge hle
  rw [heq]
  exact ⟨Int.natCast_nonneg y, by omega, hlo, hhi⟩

/-- The year from March to February that a day lies in. -/
def yearOfDay (days : ℤ) : ℤ :=
  yearOfEra ((days + 719468) % 146097) + (days + 719468) / 146097 * 400

/-- The day in its year from March to February. -/
def dayOfYear (days : ℤ) : ℤ := days + 719468 - yearStart (yearOfDay days)

/-- Eras repeat. -/
theorem yearStart_era (y era : ℤ) : yearStart (y + era * 400) = yearStart y + era * 146097 := by
  unfold yearStart
  omega

theorem dayOfYear_nonneg (days : ℤ) : 0 ≤ dayOfYear days := by
  obtain ⟨-, -, hlo, -⟩ := yearOfEra_spec (Int.emod_nonneg (days + 719468) (by decide))
    (Int.emod_lt_of_pos (days + 719468) (by decide))
  unfold dayOfYear yearOfDay
  rw [yearStart_era]
  omega

theorem dayOfYear_lt (days : ℤ) :
    dayOfYear days < yearStart (yearOfDay days + 1) - yearStart (yearOfDay days) := by
  obtain ⟨-, -, -, hhi⟩ := yearOfEra_spec (Int.emod_nonneg (days + 719468) (by decide))
    (Int.emod_lt_of_pos (days + 719468) (by decide))
  unfold dayOfYear yearOfDay
  rw [add_right_comm, yearStart_era, yearStart_era]
  omega

/-! ### Month and day -/

/-- The months passed since March on a day of the year. -/
def monthsPassed (doy : ℤ) : ℤ := (5 * doy + 2) / 153

/-- The month of a day of the year from March to February. -/
def monthOf (doy : ℤ) : ℤ :=
  if monthsPassed doy < 10 then monthsPassed doy + 3 else monthsPassed doy - 9

/-- The day of the month. -/
def dayOf (doy : ℤ) : ℤ := doy - (153 * monthsPassed doy + 2) / 5 + 1

theorem civilFromDays_eq (days : ℤ) : civilFromDays days =
    { year := yearOfDay days + (if monthOf (dayOfYear days) ≤ 2 then 1 else 0)
      month := monthOf (dayOfYear days)
      day := dayOf (dayOfYear days) } := by
  have hdoe : days + 719468 - (days + 719468) / 146097 * 146097 = (days + 719468) % 146097 := by
    omega
  obtain ⟨hlo, hhi, -, -⟩ := yearOfEra_spec (Int.emod_nonneg (days + 719468) (by decide))
    (Int.emod_lt_of_pos (days + 719468) (by decide))
  have hdoy : (days + 719468) % 146097 - (365 * yearOfEra ((days + 719468) % 146097) +
      yearOfEra ((days + 719468) % 146097) / 4 - yearOfEra ((days + 719468) % 146097) / 100) =
      dayOfYear days := by
    unfold dayOfYear yearOfDay
    rw [yearStart_era]
    unfold yearStart
    omega
  unfold yearOfEra at hdoy
  unfold civilFromDays
  simp only [hdoe, hdoy]
  rfl

/-- Every day of a year of 366 days has its place in the months; the last one is 29 February. -/
theorem month_table : ∀ doy < 366,
    (1 ≤ monthOf (doy : ℕ) ∧ monthOf (doy : ℕ) ≤ 12) ∧
    (1 ≤ dayOf (doy : ℕ) ∧ dayOf (doy : ℕ) ≤ daysInMonth 2000 (monthOf (doy : ℕ))) ∧
    (doy = 365 ∨ dayOf (doy : ℕ) ≤ daysInMonth 2001 (monthOf (doy : ℕ))) ∧
    (doy = 365 → monthOf (doy : ℕ) = 2) ∧
    monthStart (monthOf (doy : ℕ)) + (dayOf (doy : ℕ) - 1) = doy := by
  decide +kernel

theorem daysInMonth_leap {year : ℤ} (h : isLeapYear year = true) (month : ℤ) :
    daysInMonth year month = daysInMonth 2000 month := by
  unfold daysInMonth
  rw [h]
  rfl

theorem daysInMonth_common {year : ℤ} (h : isLeapYear year = false) (month : ℤ) :
    daysInMonth year month = daysInMonth 2001 month := by
  unfold daysInMonth
  rw [h]
  rfl

/-- The calendar year of a day from its year from March to February. -/
theorem marchYear_civil (days : ℤ) :
    marchYear (civilFromDays days).year (civilFromDays days).month = yearOfDay days := by
  rw [civilFromDays_eq]
  unfold marchYear
  simp only
  split <;> omega

/-- A day is the day its fields name. -/
theorem civil_days (days : ℤ) : (civilFromDays days).days = days := by
  have hlo := dayOfYear_nonneg days
  have hhi : dayOfYear days < 366 := by
    have hlt := dayOfYear_lt days
    cases hleap : isLeapYear (yearOfDay days + 1) with
    | true => rw [yearStart_leap hleap] at hlt; omega
    | false => rw [yearStart_common hleap] at hlt; omega
  obtain ⟨doy, hdoy⟩ := Int.eq_ofNat_of_zero_le hlo
  obtain ⟨-, -, -, -, hplace⟩ := month_table doy (by omega)
  unfold CivilDate.days
  rw [daysFromCivil_eq, marchYear_civil, civilFromDays_eq]
  simp only
  rw [hdoy, add_assoc, hplace, ← hdoy]
  unfold dayOfYear
  omega

/-- Only February depends on the year. -/
theorem daysInMonth_other {month : ℤ} (h : month ≠ 2) (year year' : ℤ) :
    daysInMonth year month = daysInMonth year' month := by
  unfold daysInMonth
  rw [if_neg h, if_neg h]

/-- The fields of a day are a valid date. -/
theorem civil_valid (days : ℤ) : (civilFromDays days).Valid := by
  have hlo := dayOfYear_nonneg days
  have hlt := dayOfYear_lt days
  obtain ⟨doy, hdoy⟩ := Int.eq_ofNat_of_zero_le hlo
  have hfields := civilFromDays_eq days
  rw [hdoy] at hfields hlt
  have hend : doy < 366 ∧ (isLeapYear (yearOfDay days + 1) = false → doy ≠ 365) := by
    cases hleap : isLeapYear (yearOfDay days + 1) with
    | true => rw [yearStart_leap hleap] at hlt; exact ⟨by omega, nofun⟩
    | false => rw [yearStart_common hleap] at hlt; exact ⟨by omega, fun _ => by omega⟩
  obtain ⟨⟨hm₁, hm₂⟩, ⟨hd₁, hd₂⟩, hcommon, hlast, -⟩ := month_table doy hend.1
  rw [hfields]
  refine ⟨hm₁, hm₂, hd₁, ?_⟩
  simp only
  by_cases hfeb : monthOf (doy : ℕ) = 2
  · rw [if_pos (by omega : monthOf (doy : ℕ) ≤ 2)]
    cases hleap : isLeapYear (yearOfDay days + 1) with
    | true => exact hd₂.trans_eq (daysInMonth_leap hleap _).symm
    | false =>
      exact (hcommon.resolve_left (hend.2 hleap)).trans_eq (daysInMonth_common hleap _).symm
  · exact (hcommon.resolve_left fun h => hfeb (hlast h)).trans_eq (daysInMonth_other hfeb _ _)

/-! ### The order of dates -/

/-- A month ends where the next one of the year from March to February begins. -/
theorem month_ends : ∀ m < 13, 1 ≤ m → m ≠ 2 →
    monthStart (m : ℕ) + daysInMonth 2001 (m : ℕ) = (153 * (marchMonth (m : ℕ) + 1) + 2) / 5 := by
  decide

section order
variable {a b : CivilDate}

/-- Outside February a date lies before the next month of its year from March to February. -/
theorem CivilDate.Valid.place_le (h : a.Valid) (hfeb : a.month ≠ 2) :
    monthStart a.month + a.day ≤ (153 * (marchMonth a.month + 1) + 2) / 5 := by
  obtain ⟨m, hm⟩ := Int.eq_ofNat_of_zero_le (le_trans (by decide) h.month_pos)
  have hlen := h.day_le
  have h₁ := h.month_pos
  have h₂ := h.month_le
  rw [daysInMonth_other hfeb _ 2001, hm] at hlen
  rw [hm] at hfeb h₁ h₂ ⊢
  have hends := month_ends m (by omega) (by omega) (by omega)
  omega

/-- A date lies within its year from March to February. -/
theorem CivilDate.Valid.place_lt (h : a.Valid) : monthStart a.month + (a.day - 1) <
    yearStart (marchYear a.year a.month + 1) - yearStart (marchYear a.year a.month) := by
  by_cases hfeb : a.month = 2
  · have hlen := h.day_le
    have hyear : marchYear a.year a.month + 1 = a.year := by
      rw [hfeb]
      exact sub_add_cancel a.year 1
    have hstart : monthStart 2 = 337 := by decide
    rw [hfeb] at hlen hyear ⊢
    cases hleap : isLeapYear a.year with
    | true =>
      have hlong := yearStart_leap (hyear ▸ hleap)
      rw [daysInMonth_leap hleap, show daysInMonth 2000 2 = 29 by decide] at hlen
      omega
    | false =>
      have hshort := yearStart_common (hyear ▸ hleap)
      rw [daysInMonth_common hleap, show daysInMonth 2001 2 = 28 by decide] at hlen
      omega
  · have hplace := h.place_le hfeb
    have hyear : yearStart (marchYear a.year a.month) + 365 ≤
        yearStart (marchYear a.year a.month + 1) := by
      unfold yearStart
      omega
    have hmonth : marchMonth a.month ≤ 10 := by
      have h₁ := h.month_pos
      have h₂ := h.month_le
      unfold marchMonth
      split <;> omega
    omega

/-- Dates in order, by years from March to February. -/
theorem CivilDate.Before.march (h : a.Before b) (ha : a.Valid) (hb : b.Valid) :
    marchYear a.year a.month < marchYear b.year b.month ∨
      marchYear a.year a.month = marchYear b.year b.month ∧
        (marchMonth a.month < marchMonth b.month ∨ a.month = b.month ∧ a.day < b.day) := by
  have ha₁ := ha.month_pos
  have ha₂ := ha.month_le
  have hb₁ := hb.month_pos
  have hb₂ := hb.month_le
  unfold CivilDate.Before at h
  unfold marchYear marchMonth
  split <;> split <;> split <;> split <;> omega

/-- Valid dates in order are days in order. -/
theorem days_lt (ha : a.Valid) (hb : b.Valid) (h : a.Before b) : a.days < b.days := by
  have hd := hb.day_pos
  have hb₁ := hb.month_pos
  have hstart : 0 ≤ monthStart b.month := by
    unfold monthStart marchMonth
    split <;> omega
  unfold CivilDate.days
  rw [daysFromCivil_eq, daysFromCivil_eq]
  rcases h.march ha hb with hyear | ⟨hyear, hmonth | ⟨hmonth, hday⟩⟩
  · have hin := ha.place_lt
    have hnext := yearStart_mono (Int.add_one_le_iff.2 hyear)
    omega
  · have hfeb : a.month ≠ 2 := by
      intro hfeb
      have hb₂ := hb.month_le
      rw [hfeb] at hmonth
      unfold marchMonth at hmonth
      split at hmonth <;> omega
    have hplace := ha.place_le hfeb
    rw [hyear]
    unfold monthStart at *
    omega
  · rw [hyear, hmonth]
    omega

/-- Two dates are in order or equal. -/
theorem before_total (a b : CivilDate) : a.Before b ∨ a = b ∨ b.Before a := by
  obtain ⟨y, m, d⟩ := a
  obtain ⟨y', m', d'⟩ := b
  simp only [CivilDate.Before, CivilDate.mk.injEq]
  omega

/-- A valid date is the fields of its day. -/
theorem civil_of_days (h : a.Valid) : civilFromDays a.days = a := by
  have hv := civil_valid a.days
  have hd := civil_days a.days
  rcases before_total (civilFromDays a.days) a with hb | heq | hb
  · exact absurd (days_lt hv h hb) (by rw [hd]; exact lt_irrefl _)
  · exact heq
  · exact absurd (days_lt h hv hb) (by rw [hd]; exact lt_irrefl _)

/-- Days are in the order of their dates. -/
theorem before_iff {x y : ℤ} : (civilFromDays x).Before (civilFromDays y) ↔ x < y := by
  constructor
  · intro h
    have hlt := days_lt (civil_valid x) (civil_valid y) h
    rwa [civil_days, civil_days] at hlt
  · intro hlt
    rcases before_total (civilFromDays x) (civilFromDays y) with h | heq | h
    · exact h
    · have hdays := congrArg CivilDate.days heq
      rw [civil_days, civil_days] at hdays
      omega
    · have hgt := days_lt (civil_valid y) (civil_valid x) h
      rw [civil_days, civil_days] at hgt
      omega

end order

/-! ### Instants -/

theorem utcDay_at (day time : ℤ) (h₀ : 0 ≤ time) (h : time < MS_IN_A_DAY) :
    utcDay (day * MS_IN_A_DAY + time) = day := by
  unfold utcDay
  unfold MS_IN_A_DAY at *
  omega

theorem utcDay_midnight (day : ℤ) : utcDay (day * MS_IN_A_DAY) = day := by
  have h := utcDay_at day 0 le_rfl (by decide)
  rwa [add_zero] at h

theorem time_nonneg (t : ℤ) : 0 ≤ t % MS_IN_A_DAY := Int.emod_nonneg t (by decide)

theorem time_lt (t : ℤ) : t % MS_IN_A_DAY < MS_IN_A_DAY := Int.emod_lt_of_pos t (by decide)

/-- `MakeDay` with a month of the calendar carries only days. -/
theorem makeDay_eq {year month day : ℤ} (h₁ : 1 ≤ month) (h₂ : month ≤ 12) :
    makeDay year (month - 1) day = daysFromCivil year month day := by
  have hmonth : (month - 1) / 12 = 0 ∧ (month - 1) % 12 = month - 1 := by omega
  unfold makeDay
  rw [hmonth.1, hmonth.2, add_zero, sub_add_cancel, daysFromCivil_eq, daysFromCivil_eq]
  omega

/-- The month of an instant never falls behind that of an earlier one. -/
theorem before_mono {key : MonthKey} {t t' : Instant} (h : t ≤ t')
    (hb : key.before (getUtcMonthKey t) = true) : key.before (getUtcMonthKey t') = true := by
  have hdays : utcDay t ≤ utcDay t' := Int.ediv_le_ediv (by decide) h
  have hnot : ¬(civilFromDays (utcDay t')).Before (civilFromDays (utcDay t)) := fun hlt =>
    absurd (before_iff.1 hlt) (not_lt.2 hdays)
  unfold MonthKey.before at hb ⊢
  simp only [Bool.or_eq_true, Bool.and_eq_true, decide_eq_true_eq] at hb ⊢
  unfold getUtcMonthKey getUTCFullYear civil at *
  unfold CivilDate.Before at hnot
  simp only at hb ⊢
  omega

/-! ### A year later -/

/-- The same day of a year, or 28 February. -/
def CivilDate.inYear (c : CivilDate) (year : ℤ) : CivilDate :=
  { c with year, day := min c.day (daysInMonth year c.month) }

theorem daysInMonth_pos (year month : ℤ) : 28 ≤ daysInMonth year month := by
  unfold daysInMonth
  split
  · split <;> decide
  · split <;> decide

theorem CivilDate.Valid.inYear {c : CivilDate} (h : c.Valid) (year : ℤ) : (c.inYear year).Valid where
  month_pos := h.month_pos
  month_le := h.month_le
  day_pos := le_min h.day_pos (le_trans (by decide) (daysInMonth_pos year c.month))
  day_le := min_le_right _ _

/-- Only 29 February is missing in some years. -/
theorem CivilDate.Valid.missing {c : CivilDate} (h : c.Valid) {year : ℤ}
    (hd : daysInMonth year c.month < c.day) :
    c.month = 2 ∧ c.day = 29 ∧ isLeapYear year = false := by
  have hle := h.day_le
  by_cases hfeb : c.month = 2
  · rw [hfeb] at hd hle
    have hlong : daysInMonth c.year 2 ≤ 29 := by
      unfold daysInMonth
      split
      · split <;> decide
      · contradiction
    cases hleap : isLeapYear year with
    | true =>
      rw [daysInMonth_leap hleap, show daysInMonth 2000 2 = 29 by decide] at hd
      omega
    | false =>
      rw [daysInMonth_common hleap, show daysInMonth 2001 2 = 28 by decide] at hd
      exact ⟨hfeb, by omega, rfl⟩
  · rw [daysInMonth_other hfeb year c.year] at hd
    omega

section shifts
variable {day time : ℤ}

theorem time_at (h₀ : 0 ≤ time) (h : time < MS_IN_A_DAY) :
    (day * MS_IN_A_DAY + time) % MS_IN_A_DAY = time := by
  unfold MS_IN_A_DAY at *
  omega

/-- The fields of a valid date at any time of day. -/
theorem civil_at {c : CivilDate} (hc : c.Valid) (h₀ : 0 ≤ time) (h : time < MS_IN_A_DAY) :
    civil (c.days * MS_IN_A_DAY + time) = c := by
  unfold civil
  rw [utcDay_at _ _ h₀ h, civil_of_days hc]

end shifts

/-- In a year without 29 February the day after the 28th is 1 March. -/
theorem daysFromCivil_march {year : ℤ} (h : isLeapYear year = false) (day : ℤ) :
    daysFromCivil year 2 (28 + day) = daysFromCivil year 3 day := by
  have hyear : yearStart year = yearStart (year - 1) + 365 := by
    have hstep := @yearStart_common (year - 1)
    rw [sub_add_cancel] at hstep
    exact hstep h
  have hfeb : monthStart 2 = 337 := by decide
  have hmarch : monthStart 3 = 0 := by decide
  rw [daysFromCivil_eq, daysFromCivil_eq, show marchYear year 2 = year - 1 from rfl,
    show marchYear year 3 = year from rfl, hyear, hfeb, hmarch]
  omega

/-- A day that exists in the new year stays in its month. -/
theorem month_kept {t : Instant} {y y' m d : ℤ} (hc : CivilDate.Valid ⟨y, m, d⟩)
    (hd : d ≤ daysInMonth y' m) :
    getUTCMonth (daysFromCivil y' m d * MS_IN_A_DAY + t % MS_IN_A_DAY) = m - 1 := by
  have hvalid : CivilDate.Valid ⟨y', m, d⟩ := ⟨hc.month_pos, hc.month_le, hc.day_pos, hd⟩
  have hfields := civil_at hvalid (time_nonneg t) (time_lt t)
  unfold CivilDate.days at hfields
  unfold getUTCMonth
  rw [hfields]

/-- The date a missing 29 February carries over to. -/
theorem civil_carried (t : Instant) (y : ℤ) :
    civil (daysFromCivil y 3 1 * MS_IN_A_DAY + t % MS_IN_A_DAY) = ⟨y, 3, 1⟩ := by
  have hmarch : CivilDate.Valid ⟨y, 3, 1⟩ :=
    ⟨show (1 : ℤ) ≤ 3 by decide, show (3 : ℤ) ≤ 12 by decide, show (1 : ℤ) ≤ 1 by decide,
      show (1 : ℤ) ≤ 31 by decide⟩
  have hfields := civil_at hmarch (time_nonneg t) (time_lt t)
  unfold CivilDate.days at hfields
  exact hfields

/-- A missing 29 February carries over into March. -/
theorem month_carried (t : Instant) (y : ℤ) :
    getUTCMonth (daysFromCivil y 3 1 * MS_IN_A_DAY + t % MS_IN_A_DAY) = 2 := by
  unfold getUTCMonth
  rw [civil_carried]
  rfl

/-- `setDate(0)` takes a date carried over into March back to the end of February. -/
theorem carried_back (t : Instant) (y : ℤ) :
    setDate (daysFromCivil y 3 1 * MS_IN_A_DAY + t % MS_IN_A_DAY) 0 =
      daysFromCivil y 3 0 * MS_IN_A_DAY + t % MS_IN_A_DAY := by
  unfold setDate getUTCFullYear getUTCMonth
  rw [civil_carried, time_at (time_nonneg t) (time_lt t)]
  simp only
  rw [makeDay_eq (by decide) (by decide)]

/-- `addYears` keeps the time of day and puts 29 February on 28 February where it is missing. -/
theorem addYears_eq (t : Instant) (years : ℤ) : addYears t years =
    ((civil t).inYear ((civil t).year + years)).days * MS_IN_A_DAY + t % MS_IN_A_DAY := by
  have hc : (civil t).Valid := civil_valid _
  obtain ⟨y, m, d, hcivil⟩ : ∃ y m d, civil t = ⟨y, m, d⟩ := ⟨_, _, _, rfl⟩
  have hset : setUTCFullYear t (y + years) =
      daysFromCivil (y + years) m d * MS_IN_A_DAY + t % MS_IN_A_DAY := by
    unfold setUTCFullYear getUTCMonth getUTCDate
    rw [hcivil] at hc ⊢
    simp only
    rw [makeDay_eq hc.month_pos hc.month_le]
  have hyear : getUTCFullYear t = y := by unfold getUTCFullYear; rw [hcivil]
  have hmonth : getUTCMonth t = m - 1 := by unfold getUTCMonth; rw [hcivil]
  unfold addYears
  simp only [hyear, hmonth, hset]
  rw [hcivil] at hc ⊢
  by_cases hd : d ≤ daysInMonth (y + years) m
  · have hmin : min d (daysInMonth (y + years) m) = d := min_eq_left hd
    rw [month_kept hc hd, if_neg (not_not.2 rfl)]
    unfold CivilDate.inYear CivilDate.days
    simp only [hmin]
  · obtain ⟨hm, hd', hleap⟩ := hc.missing (not_le.1 hd)
    simp only at hm hd'
    subst hm hd'
    have hlen : daysInMonth (y + years) 2 = 28 := by
      rw [daysInMonth_common hleap]
      decide
    have hcarry := daysFromCivil_march hleap 1
    have hback := daysFromCivil_march hleap 0
    rw [show (28 : ℤ) + 1 = 29 from rfl] at hcarry
    rw [hcarry, month_carried, if_pos (by decide), carried_back, ← hback]
    unfold CivilDate.inYear CivilDate.days
    simp only [hlen]
    rfl

/-- Both on the same day a year later: 28 and 29 February of a leap year. -/
def CivilDate.Meets (c c' : CivilDate) : Prop :=
  c.month = 2 ∧ c.day = 28 ∧ c'.year = c.year ∧ c'.month = 2 ∧ c'.day = 29

/-- Dates in order stay in order a year later, or meet. -/
theorem inYear_order {c c' : CivilDate} (hc : c.Valid) (hc' : c'.Valid) (h : c.Before c') :
    (c.inYear (c.year + 1)).Before (c'.inYear (c'.year + 1)) ∨
      c.inYear (c.year + 1) = c'.inYear (c'.year + 1) ∧ c.Meets c' := by
  obtain ⟨y, m, d⟩ := c
  obtain ⟨y', m', d'⟩ := c'
  simp only [CivilDate.Before, CivilDate.inYear, CivilDate.Meets, CivilDate.mk.injEq] at h ⊢
  rcases h with hyear | ⟨rfl, hmonth | ⟨rfl, hday⟩⟩
  · exact .inl (.inl (by omega))
  · exact .inl (.inr ⟨rfl, .inl hmonth⟩)
  · by_cases hd : d' ≤ daysInMonth (y + 1) m
    · exact .inl (.inr ⟨rfl, .inr ⟨rfl, by omega⟩⟩)
    · obtain ⟨hm, hd', hleap⟩ := hc'.missing (not_le.1 hd)
      simp only at hm hd'
      have hlen : daysInMonth (y + 1) m = 28 := by
        rw [hm, daysInMonth_common hleap]
        decide
      rw [hlen]
      by_cases hlast : d = 28
      · exact .inr ⟨⟨rfl, rfl, by omega⟩, hm, hlast, rfl, hm, hd'⟩
      · exact .inl (.inr ⟨rfl, .inr ⟨rfl, by omega⟩⟩)

/-- 28 and 29 February of a year are the same day a year later. -/
theorem CivilDate.Meets.inYear_eq {c c' : CivilDate} (h : c.Meets c') (hc' : c'.Valid) :
    c.inYear (c.year + 1) = c'.inYear (c'.year + 1) := by
  obtain ⟨hm, hd, hy, hm', hd'⟩ := h
  have hle := hc'.day_le
  rw [hd', hm'] at hle
  have hleap : isLeapYear (c.year + 1) = false := by
    cases hthis : isLeapYear c'.year with
    | false =>
      rw [daysInMonth_common hthis, show daysInMonth 2001 2 = 28 by decide] at hle
      omega
    | true =>
      simp only [isLeapYear, Bool.and_eq_true, Bool.and_eq_false_iff, decide_eq_true_eq,
        decide_eq_false_iff_not] at hthis ⊢
      omega
  have hlen : daysInMonth (c.year + 1) 2 = 28 := by
    rw [daysInMonth_common hleap]
    decide
  unfold CivilDate.inYear
  rw [hm, hm', hd, hd', hy, hlen]
  rfl

/-- The order of two instants a year later: on 28 and 29 February of a leap year the time of day
    decides, else the later one stays the later one. -/
theorem addYears_order {t t' : ℤ} (h : t < t') :
    ((civil t).Meets (civil t') ∧
      addYears t' 1 - addYears t 1 = t' % MS_IN_A_DAY - t % MS_IN_A_DAY) ∨
    (¬(civil t).Meets (civil t') ∧ addYears t 1 < addYears t' 1) := by
  have hv : (civil t).Valid := civil_valid _
  have hv' : (civil t').Valid := civil_valid _
  have hdays : utcDay t ≤ utcDay t' := Int.ediv_le_ediv (by decide) h.le
  have h₁ := time_lt t
  have h₂ := time_nonneg t'
  rw [addYears_eq, addYears_eq]
  rcases hdays.lt_or_eq with hlt | heq
  · rcases inYear_order hv hv' (before_iff.2 hlt) with hb | ⟨heq, hmeets⟩
    · have hlater := days_lt (hv.inYear _) (hv'.inYear _) hb
      have hnot : ¬(civil t).Meets (civil t') := fun hm => by
        rw [hm.inYear_eq hv'] at hlater
        exact lt_irrefl _ hlater
      refine .inr ⟨hnot, Int.lt_of_sub_pos ?_⟩
      unfold MS_IN_A_DAY at *
      omega
    · refine .inl ⟨hmeets, ?_⟩
      rw [heq, add_sub_add_left_eq_sub]
  · have hsame : civil t = civil t' := by unfold civil; rw [heq]
    have hnot : ¬(civil t).Meets (civil t') := fun hm => by
      have hday := hm.2.1
      rw [hsame, hm.2.2.2.2] at hday
      omega
    have htime : 0 < t' - t := Int.sub_pos_of_lt h
    refine .inr ⟨hnot, Int.lt_of_sub_pos ?_⟩
    rw [hsame, add_sub_add_left_eq_sub]
    unfold utcDay MS_IN_A_DAY at *
    omega

/-- 28 February at a later time of day than 29 February. -/
def Overtakes (t t' : Instant) : Prop :=
  (civil t).Meets (civil t') ∧ t' % MS_IN_A_DAY < t % MS_IN_A_DAY

/-- A year after the later of two instants comes first only from 29 February, after a later hour of
    28 February. -/
theorem addYears_lt_iff {t t' : ℤ} (h : t ≤ t') :
    addYears t' 1 < addYears t 1 ↔ Overtakes t t' := by
  unfold Overtakes
  rcases h.lt_or_eq with hlt | rfl
  · rcases addYears_order hlt with ⟨hmeets, hdiff⟩ | ⟨hnot, hlt⟩
    · rw [← sub_neg, hdiff, sub_neg, and_iff_right hmeets]
    · exact iff_of_false (not_lt.2 hlt.le) fun ho => hnot ho.1
  · exact iff_of_false (lt_irrefl _) fun ho => lt_irrefl _ ho.2

/-- A year after `now` lasts as long as a year after `t`. -/
def KeepsUp (t now : Instant) : Prop :=
  if t ≤ now then ¬Overtakes t now
  else (civil now).Meets (civil t) ∧ t % MS_IN_A_DAY ≤ now % MS_IN_A_DAY

theorem addYears_le_iff {t now : ℤ} : addYears t 1 ≤ addYears now 1 ↔ KeepsUp t now := by
  unfold KeepsUp
  split
  · rename_i h
    rw [← not_lt, addYears_lt_iff h]
  · rename_i h
    rcases addYears_order (not_le.1 h) with ⟨hmeets, hdiff⟩ | ⟨hnot, hlt⟩
    · rw [← sub_nonpos, hdiff, sub_nonpos, and_iff_right hmeets]
    · exact iff_of_false (not_le.2 hlt) fun hk => hnot hk.1

end CinemaLoyalty
