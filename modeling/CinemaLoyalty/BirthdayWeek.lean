import CinemaLoyalty.Anniversaries

/-! @svc BirthdayWeek | layer:property | source:src/loyalty/loyalty-calculator.service.ts (isBirthdayWeek), src/loyalty/utils/utc-local-date.util.ts (toUtcLocalDate, isSameUtcMonthDay)

    A birthday week reaches three days to both sides of the anniversary. The code looks at the
    anniversaries of this year and of its neighbours; those of all other years lie more than a year
    away, so no anniversary is missed. -/

namespace CinemaLoyalty

/-- The anniversary of a birthday in a year; 29 February rolls over to 1 March. -/
def anniversary (birthday : Instant) (year : ℤ) : CivilDate :=
  if LeapDay birthday ∧ isLeapYear year = false then ⟨year, 3, 1⟩
  else ⟨year, (civil birthday).month, (civil birthday).day⟩

/-- An anniversary lies within the days of a birthday week from the current day. -/
def NearAnniversary (birthday now : Instant) (year : ℤ) : Prop :=
  |(anniversary birthday year).days - utcDay now| ≤ 3

/-! ### Years -/

section years
variable {birthday now : Instant} {c : CivilDate}

/-- New Year's Day. -/
def newYear (year : ℤ) : ℤ := CivilDate.days ⟨year, 1, 1⟩

theorem newYear_valid (year : ℤ) : CivilDate.Valid ⟨year, 1, 1⟩ :=
  ⟨show (1 : ℤ) ≤ 1 by decide, show (1 : ℤ) ≤ 12 by decide, show (1 : ℤ) ≤ 1 by decide,
    show (1 : ℤ) ≤ 31 by decide⟩

theorem newYear_eq (year : ℤ) : newYear year = yearStart (year - 1) + 306 - 719468 := by
  have hjan : monthStart 1 = 306 := by decide
  show daysFromCivil year 1 1 = _
  rw [daysFromCivil_eq, hjan, show marchYear year 1 = year - 1 from rfl]
  omega

/-- A year takes at least 365 days. -/
theorem newYear_later {year year' : ℤ} (h : year < year') : newYear year + 365 ≤ newYear year' := by
  have hmono : yearStart year ≤ yearStart (year' - 1) := yearStart_mono (by omega)
  have hstep : yearStart (year - 1) + 365 ≤ yearStart year := by
    unfold yearStart
    omega
  rw [newYear_eq, newYear_eq]
  omega

/-- A date lies between two New Year's Days. -/
theorem newYear_le (h : c.Valid) : newYear c.year ≤ c.days := by
  have h₁ := h.month_pos
  have h₂ := h.day_pos
  rcases before_total c ⟨c.year, 1, 1⟩ with hb | heq | hb
  · unfold CivilDate.Before at hb
    simp only at hb
    omega
  · rw [newYear, ← heq]
  · exact (days_lt (newYear_valid _) h hb).le

theorem lt_newYear (h : c.Valid) : c.days < newYear (c.year + 1) :=
  days_lt h (newYear_valid _) (.inl (lt_add_one c.year))

theorem anniversary_year (birthday : Instant) (year : ℤ) : (anniversary birthday year).year = year := by
  unfold anniversary
  split <;> rfl

theorem anniversary_valid (birthday : Instant) (year : ℤ) : (anniversary birthday year).Valid := by
  have hb : (civil birthday).Valid := civil_valid _
  unfold anniversary
  split
  · exact ⟨show (1 : ℤ) ≤ 3 by decide, show (3 : ℤ) ≤ 12 by decide, show (1 : ℤ) ≤ 1 by decide,
      show (1 : ℤ) ≤ 31 by decide⟩
  · rename_i hroll
    refine ⟨hb.month_pos, hb.month_le, hb.day_pos, ?_⟩
    by_contra hmissing
    obtain ⟨hm, hd, hleap⟩ := hb.missing (not_le.1 hmissing)
    exact hroll ⟨⟨hm, hd⟩, hleap⟩

/-- Only the anniversaries of this year and of its neighbours can be near. -/
theorem NearAnniversary.offset {year : ℤ} (h : NearAnniversary birthday now year) :
    ∃ offset ∈ [-1, 0, 1], year = getUTCFullYear now + offset := by
  have hvalid := anniversary_valid birthday year
  have hlo := newYear_le hvalid
  have hhi := lt_newYear hvalid
  have hnow : (civil now).Valid := civil_valid _
  have hlo' := newYear_le hnow
  have hhi' := lt_newYear hnow
  have hday : (civil now).days = utcDay now := civil_days _
  rw [anniversary_year] at hlo hhi
  unfold NearAnniversary at h
  rw [abs_le] at h
  unfold getUTCFullYear
  refine ⟨year - (civil now).year, ?_, by omega⟩
  have hbefore : ¬year + 1 < (civil now).year := fun hlt => by
    have hfar := newYear_later hlt
    omega
  have hafter : ¬(civil now).year + 1 < year := fun hlt => by
    have hfar := newYear_later hlt
    omega
  simp only [List.mem_cons, List.not_mem_nil, or_false]
  omega

end years

/-! ### The candidates of the code -/

section candidates
variable {birthday now : Instant}

/-- UTC midnight of a day, for years that `Date.UTC` takes as they are. -/
theorem toUtcLocalDate_eq {t : Instant} (h : 100 ≤ getUTCFullYear t) :
    toUtcLocalDate t = utcDay t * MS_IN_A_DAY := by
  have hc : (civil t).Valid := civil_valid _
  have hday : (civil t).days = utcDay t := civil_days _
  unfold toUtcLocalDate dateUTC
  rw [if_neg (by omega)]
  unfold getUTCFullYear getUTCMonth getUTCDate
  rw [makeDay_eq hc.month_pos hc.month_le, ← hday]
  rfl

/-- Replacing the year of a midnight gives midnight of the anniversary. -/
theorem setUTCFullYear_midnight (birthday : Instant) (year : ℤ) :
    setUTCFullYear (utcDay birthday * MS_IN_A_DAY) year =
      (anniversary birthday year).days * MS_IN_A_DAY := by
  have hb : (civil birthday).Valid := civil_valid _
  have hcivil : civil (utcDay birthday * MS_IN_A_DAY) = civil birthday := by
    unfold civil
    rw [utcDay_midnight]
  have htime : utcDay birthday * MS_IN_A_DAY % MS_IN_A_DAY = 0 := Int.mul_emod_left _ _
  unfold setUTCFullYear getUTCMonth getUTCDate
  rw [hcivil, htime, add_zero, makeDay_eq hb.month_pos hb.month_le]
  unfold anniversary
  split
  · rename_i hroll
    have hcarry := daysFromCivil_march hroll.2 1
    rw [show (28 : ℤ) + 1 = 29 from rfl] at hcarry
    rw [hroll.1.1, hroll.1.2, hcarry]
    rfl
  · rfl

/-- The distance of two midnights in days. -/
theorem midnights_near (a b : ℤ) :
    ((|a * MS_IN_A_DAY - b * MS_IN_A_DAY| : ℤ) : ℚ) / MS_IN_A_DAY ≤
      LOYALTY_RULES.BIRTHDAY_WEEK_RADIUS_DAYS ↔ |b - a| ≤ 3 := by
  have hday : (0 : ℚ) < MS_IN_A_DAY := by exact_mod_cast (show (0 : ℤ) < MS_IN_A_DAY by decide)
  rw [← sub_mul, abs_mul, abs_of_pos (show (0 : ℤ) < MS_IN_A_DAY by decide), Int.cast_mul,
    mul_div_cancel_right₀ _ hday.ne', Int.cast_le, abs_sub_comm]
  rfl

/-- The code asks for the anniversaries of this year and of its neighbours. -/
theorem isBirthdayWeek_candidates (hb : 100 ≤ getUTCFullYear birthday)
    (hn : 100 ≤ getUTCFullYear now) : isBirthdayWeek (some birthday) now = true ↔
      ∃ offset ∈ [-1, 0, 1], NearAnniversary birthday now (getUTCFullYear now + offset) := by
  have hcivil : ∀ t, civil (utcDay t * MS_IN_A_DAY) = civil t := fun t => by
    unfold civil
    rw [utcDay_midnight]
  have hyear : ∀ t, getUTCFullYear (utcDay t * MS_IN_A_DAY) = getUTCFullYear t := fun t => by
    unfold getUTCFullYear
    rw [hcivil]
  unfold isBirthdayWeek NearAnniversary
  simp only [toUtcLocalDate_eq hb, toUtcLocalDate_eq hn, hyear,
    toUtcLocalDate_eq ((hyear birthday).symm ▸ hb), utcDay_midnight, setUTCFullYear_midnight]
  simp only [List.any_map, List.any_eq_true, Function.comp, decide_eq_true_eq, midnights_near]

/-- On the birthday itself the anniversary of the year is the day. -/
theorem near_of_sameMonthDay (h : isSameUtcMonthDay birthday now = true) :
    NearAnniversary birthday now (getUTCFullYear now) := by
  obtain ⟨hm, hd⟩ := isSameUtcMonthDay_iff.1 h
  have hday : (civil now).days = utcDay now := civil_days _
  have hdate : anniversary birthday (getUTCFullYear now) = civil now := by
    unfold anniversary
    rw [if_neg, hm, hd]
    · rfl
    · rintro ⟨hleapDay, hcommon⟩
      exact (hasAnniversary_of rfl (fallsOn_of h)).elim (fun hnot => hnot hleapDay)
        fun hleap => Bool.false_ne_true (hcommon.symm.trans hleap)
  unfold NearAnniversary
  rw [hdate, hday, sub_self, abs_zero]
  decide

end candidates

/-- `isBirthdayWeek` answers for the anniversaries of all years, and answers yes on every day that
    `isSameUtcMonthDay` takes for the birthday. -/
theorem isBirthdayWeek_iff (birthday now : Instant) (hb : 100 ≤ getUTCFullYear birthday)
    (hn : 100 ≤ getUTCFullYear now) :
    (isBirthdayWeek (some birthday) now = true ↔ ∃ year, NearAnniversary birthday now year) ∧
      (isSameUtcMonthDay birthday now = true → isBirthdayWeek (some birthday) now = true) := by
  have hiff := isBirthdayWeek_candidates hb hn
  constructor
  · rw [hiff]
    constructor
    · rintro ⟨offset, -, hnear⟩
      exact ⟨_, hnear⟩
    · rintro ⟨year, hnear⟩
      obtain ⟨offset, hoffset, rfl⟩ := hnear.offset
      exact ⟨offset, hoffset, hnear⟩
  · intro hsame
    refine hiff.2 ⟨0, by simp, ?_⟩
    rw [add_zero]
    exact near_of_sameMonthDay hsame

/-- A birthday on 31 December is near on 3 January of the next year. -/
theorem isBirthdayWeek_iff_newYear :
    (isBirthdayWeek (some (dateUTC 1990 11 31)) (dateUTC 2025 0 3) = true ↔
      ∃ year, NearAnniversary (dateUTC 1990 11 31) (dateUTC 2025 0 3) year) ∧
    (isSameUtcMonthDay (dateUTC 1990 11 31) (dateUTC 2025 0 3) = true →
      isBirthdayWeek (some (dateUTC 1990 11 31)) (dateUTC 2025 0 3) = true) :=
  isBirthdayWeek_iff _ _ (by decide) (by decide)

end CinemaLoyalty
