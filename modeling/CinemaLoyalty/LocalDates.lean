import CinemaLoyalty.Dates
import CinemaLoyalty.Numbers

/-! @svc LocalDates | layer:property | source:src/loyalty/utils/utc-local-date.util.ts (parseUtcLocalDate), src/loyalty/loyalty.service.ts (processUserDateOfBirthSet)

    A date of birth is checked by building the date with carrying fields and reading the fields back.
    A valid date never carries, so it is read back as it was written; the fields read back are always
    those of a valid date, so an invalid one never is. The years 0 to 99 are lost to `Date.UTC`, which
    takes them for years of the last century. -/

namespace CinemaLoyalty

/-- The day of an instant as `YYYY-MM-DD`, for years of four digits. -/
def formatDateOnly (date : Instant) : String :=
  String.ofList ((toISOString date).toList.take 10)

/-! ### Digits -/

/-- The digits of a number filled up with zeros. -/
def paddedDigits (width n : ℕ) : List Char :=
  List.replicate (width - (Nat.toDigits 10 n).length) '0' ++ Nat.toDigits 10 n

theorem padStart_eq (width n : ℕ) : padStart width n = String.ofList (paddedDigits width n) := rfl

theorem paddedDigits_one {n : ℕ} (h : n < 10) : paddedDigits 1 n = [Nat.digitChar n] := by
  unfold paddedDigits
  rw [Nat.toDigits_of_lt_base h]
  rfl

/-- The last digit stands behind the digits of the rest. -/
theorem paddedDigits_succ {width : ℕ} (hw : 1 ≤ width) (n : ℕ) :
    paddedDigits (width + 1) n = paddedDigits width (n / 10) ++ [Nat.digitChar (n % 10)] := by
  unfold paddedDigits
  by_cases h : n < 10
  · have hrest : n / 10 = 0 := Nat.div_eq_of_lt h
    obtain ⟨w, rfl⟩ := Nat.exists_eq_add_of_le' hw
    rw [hrest, Nat.mod_eq_of_lt h, Nat.toDigits_of_lt_base h, Nat.toDigits_zero]
    simp only [List.length_singleton, Nat.add_sub_cancel, List.replicate_succ']
  · have hsplit : Nat.toDigits 10 n = Nat.toDigits 10 (n / 10) ++ [Nat.digitChar (n % 10)] := by
      rw [Nat.toDigits_eq_if (by decide), if_neg h]
    rw [hsplit, List.length_append, List.length_singleton, Nat.add_sub_add_right, List.append_assoc]

theorem paddedDigits_length {width n : ℕ} (h : n < 10 ^ (width + 1)) :
    (paddedDigits (width + 1) n).length = width + 1 := by
  induction width generalizing n with
  | zero =>
    rw [zero_add, paddedDigits_one (by simpa using h)]
    rfl
  | succ width ih =>
    have hrest : n / 10 < 10 ^ (width + 1) := by
      rw [pow_succ] at h
      omega
    rw [paddedDigits_succ (Nat.le_add_left 1 width), List.length_append, ih hrest,
      List.length_singleton]

theorem digitsValue_concat (cs : List Char) (c : Char) :
    digitsValue (cs ++ [c]) = 10 * digitsValue cs + ((c.toNat : ℤ) - 48) := by
  unfold digitsValue
  rw [List.foldl_concat]

/-- A digit stands for a number below ten, and is the digit of that number. -/
theorem digit_spec {c : Char} (h : c.isDigit = true) :
    ∃ n < 10, (c.toNat : ℤ) - 48 = (n : ℕ) ∧ Nat.digitChar n = c := by
  have hrange := digit_range h
  refine ⟨c.toNat - 48, by omega, by omega, ?_⟩
  have htable : ∀ k < 10, (Nat.digitChar k).toNat = k + 48 := by decide
  refine Char.toNat_inj.1 ?_
  rw [htable _ (by omega)]
  omega

/-- A text of digits is its number filled up to its length. -/
theorem digits_roundtrip (cs : List Char) (hne : cs ≠ []) (h : ∀ c ∈ cs, c.isDigit = true) :
    ∃ n < 10 ^ cs.length, digitsValue cs = (n : ℕ) ∧ paddedDigits cs.length n = cs := by
  induction cs using List.reverseRecOn with
  | nil => exact absurd rfl hne
  | append_singleton cs c ih =>
    obtain ⟨d, hd, hval, hchar⟩ := digit_spec (h c List.mem_concat_self)
    rw [digitsValue_concat, hval, List.length_append, List.length_singleton]
    by_cases hcs : cs = []
    · subst hcs
      refine ⟨d, by simpa using hd, by simp [digitsValue], ?_⟩
      rw [List.length_nil, Nat.zero_add, paddedDigits_one hd, hchar]
      rfl
    · obtain ⟨n, hlt, hn, hpad⟩ := ih hcs fun x hx => h x (List.mem_append_left _ hx)
      have hdiv : (10 * n + d) / 10 = n := by omega
      have hmod : (10 * n + d) % 10 = d := by omega
      refine ⟨10 * n + d, by rw [pow_succ]; omega, by rw [hn]; push_cast; rfl, ?_⟩
      rw [paddedDigits_succ (List.length_pos_of_ne_nil hcs), hdiv, hmod, hpad, hchar]

/-! ### The fields of a text -/

section fields
variable {cs : List Char} {year month day : ℤ} {date : Instant}

/-- A text of the pattern is the digits of its fields. -/
theorem dateOnlyMatch_spec (h : dateOnlyMatch cs = some (year, month, day)) :
    ∃ y < 10000, ∃ m < 100, ∃ d < 100, year = (y : ℕ) ∧ month = (m : ℕ) ∧ day = (d : ℕ) ∧
      cs = paddedDigits 4 y ++ '-' :: (paddedDigits 2 m ++ '-' :: paddedDigits 2 d) := by
  unfold dateOnlyMatch at h
  split at h
  · rename_i y₁ y₂ y₃ y₄ m₁ m₂ d₁ d₂
    split at h
    · rename_i hdigits
      rw [List.all_eq_true] at hdigits
      cases h
      obtain ⟨y, hlt, hy, hy'⟩ := digits_roundtrip [y₁, y₂, y₃, y₄] (by simp)
        fun c hc => hdigits c (by simp at hc ⊢; tauto)
      obtain ⟨m, hltm, hm, hm'⟩ := digits_roundtrip [m₁, m₂] (by simp)
        fun c hc => hdigits c (by simp at hc ⊢; tauto)
      obtain ⟨d, hltd, hd, hd'⟩ := digits_roundtrip [d₁, d₂] (by simp)
        fun c hc => hdigits c (by simp at hc ⊢; tauto)
      refine ⟨y, by simpa using hlt, m, by simpa using hltm, d, by simpa using hltd, hy, hm, hd, ?_⟩
      rw [show 4 = [y₁, y₂, y₃, y₄].length from rfl, hy', show 2 = [m₁, m₂].length from rfl, hm',
        show [m₁, m₂].length = [d₁, d₂].length from rfl, hd']
      rfl
    · cases h
  · cases h

/-- Two years have their months and days at different places. -/
theorem daysFromCivil_year_inj {year year' month day : ℤ}
    (h : daysFromCivil year month day = daysFromCivil year' month day) : year = year' := by
  rw [daysFromCivil_eq, daysFromCivil_eq] at h
  unfold yearStart marchYear at h
  split at h <;> omega

/-- The fields read back are those of the text only for a valid date of the year 100 or later. -/
theorem dateUTC_fields_iff (hyear : 0 ≤ year) :
    civil (dateUTC year (month - 1) day) = ⟨year, month, day⟩ ↔
      CivilDate.Valid ⟨year, month, day⟩ ∧ 100 ≤ year := by
  unfold dateUTC civil
  rw [utcDay_midnight]
  constructor
  · intro h
    have hvalid := civil_valid (makeDay (if 0 ≤ year ∧ year ≤ 99 then 1900 + year else year)
      (month - 1) day)
    rw [h] at hvalid
    refine ⟨hvalid, ?_⟩
    by_contra hsmall
    -- the day built lies in the year 1900 + year, the day the fields name in the year itself
    have hbuilt := civil_days (makeDay (if 0 ≤ year ∧ year ≤ 99 then 1900 + year else year)
      (month - 1) day)
    rw [h, if_pos ⟨hyear, by omega⟩, makeDay_eq hvalid.month_pos hvalid.month_le] at hbuilt
    have hsame : year = 1900 + year := daysFromCivil_year_inj hbuilt
    omega
  · rintro ⟨hvalid, hlarge⟩
    rw [if_neg (by omega), makeDay_eq hvalid.month_pos hvalid.month_le]
    exact civil_of_days hvalid

/-- The first ten characters of the ISO text are the digits of the fields. -/
theorem formatDateOnly_eq {y m d : ℕ} (h : civil date = ⟨(y : ℕ), (m : ℕ), (d : ℕ)⟩) (hy : y < 10000)
    (hm : m < 100) (hd : d < 100) : formatDateOnly date =
      String.ofList (paddedDigits 4 y ++ '-' :: (paddedDigits 2 m ++ '-' :: paddedDigits 2 d)) := by
  have hyear : (0 : ℤ) ≤ (y : ℕ) ∧ ((y : ℕ) : ℤ) ≤ 9999 := by omega
  have hfirst : ∀ rest, (paddedDigits 4 y ++ ("-".toList ++ (paddedDigits 2 m ++ ("-".toList ++
      (paddedDigits 2 d ++ rest))))).take 10 =
      paddedDigits 4 y ++ '-' :: (paddedDigits 2 m ++ '-' :: paddedDigits 2 d) := fun rest => by
    have hlen : (paddedDigits 4 y ++ '-' :: (paddedDigits 2 m ++ '-' :: paddedDigits 2 d)).length =
        10 := by
      rw [List.length_append, List.length_cons, List.length_append, List.length_cons,
        paddedDigits_length hy, paddedDigits_length hm, paddedDigits_length hd]
    have htake : ((paddedDigits 4 y ++ '-' :: (paddedDigits 2 m ++ '-' :: paddedDigits 2 d)) ++
        rest).take 10 = _ := List.take_left' hlen
    rw [← htake]
    simp
  unfold formatDateOnly toISOString getUTCFullYear
  simp only [h, if_pos hyear, Int.toNat_natCast, padStart_eq, String.toList_append,
    String.toList_ofList, List.append_assoc]
  rw [hfirst]

end fields

/-! ### The text and its date -/

section parse
variable {newDate : String → Option Instant} {value : String} {year month day : ℤ} {date : Instant}

theorem parseUtcLocalDate_eq (h : dateOnlyMatch (jsTrimChars value.toList) = some (year, month, day)) :
    parseUtcLocalDate newDate value =
      if civil (dateUTC year (month - 1) day) = ⟨year, month, day⟩ then
        some (dateUTC year (month - 1) day)
      else none := by
  unfold parseUtcLocalDate
  simp only [h]
  unfold getUTCFullYear getUTCMonth getUTCDate
  generalize civil (dateUTC year (month - 1) day) = c
  obtain ⟨y, m, d⟩ := c
  by_cases heq : (⟨y, m, d⟩ : CivilDate) = ⟨year, month, day⟩
  · rw [if_pos heq, if_neg]
    cases heq
    simp
  · rw [if_neg heq, if_pos]
    rw [CivilDate.mk.injEq] at heq
    simp only
    omega

/-- The fields of an accepted date, and its text. -/
theorem parseUtcLocalDate_ok (h : dateOnlyMatch (jsTrimChars value.toList) = some (year, month, day))
    (hparse : parseUtcLocalDate newDate value = some date) :
    civil date = ⟨year, month, day⟩ ∧ date % MS_IN_A_DAY = 0 ∧
      formatDateOnly date = jsTrim value := by
  rw [parseUtcLocalDate_eq h] at hparse
  split at hparse
  · rename_i hcivil
    cases hparse
    obtain ⟨y, hy, m, hm, d, hd, rfl, rfl, rfl, htext⟩ := dateOnlyMatch_spec h
    refine ⟨hcivil, Int.mul_emod_left _ _, ?_⟩
    unfold jsTrim
    rw [formatDateOnly_eq hcivil hy hm hd, htext]
  · cases hparse

end parse

/-- A text of the pattern is accepted exactly when it names a day of the calendar, of the year 100 or
    later. The date is UTC midnight of that day, it is written as the text was, and no other text
    gives it. -/
theorem parseUtcLocalDate_calendar (newDate : String → Option Instant) (value : String)
    {year month day : ℤ}
    (h : dateOnlyMatch (jsTrimChars value.toList) = some (year, month, day)) :
    ((parseUtcLocalDate newDate value).isSome = true ↔
      CivilDate.Valid ⟨year, month, day⟩ ∧ 100 ≤ year) ∧
    ∀ date, parseUtcLocalDate newDate value = some date →
      civil date = ⟨year, month, day⟩ ∧ date % MS_IN_A_DAY = 0 ∧
      formatDateOnly date = jsTrim value ∧
      ∀ value', (dateOnlyMatch (jsTrimChars value'.toList)).isSome = true →
        parseUtcLocalDate newDate value' = some date → jsTrim value' = jsTrim value := by
  have hyear : 0 ≤ year := by
    obtain ⟨y, -, m, -, d, -, rfl, -⟩ := dateOnlyMatch_spec h
    exact Int.natCast_nonneg y
  constructor
  · rw [← dateUTC_fields_iff hyear, parseUtcLocalDate_eq h]
    split
    · rename_i hcivil
      exact iff_of_true rfl hcivil
    · rename_i hcivil
      exact iff_of_false nofun hcivil
  · intro date hparse
    obtain ⟨hcivil, hmidnight, htext⟩ := parseUtcLocalDate_ok h hparse
    refine ⟨hcivil, hmidnight, htext, fun value' hmatch hparse' => ?_⟩
    obtain ⟨⟨year', month', day'⟩, h'⟩ := Option.isSome_iff_exists.1 hmatch
    obtain ⟨-, -, htext'⟩ := parseUtcLocalDate_ok h' hparse'
    rw [← htext', htext]

/-- The last day of a leap year's February, with white space around it. -/
theorem parseUtcLocalDate_calendar_leapDay :
    ((parseUtcLocalDate (fun _ => none) " 2024-02-29 ").isSome = true ↔
      CivilDate.Valid ⟨2024, 2, 29⟩ ∧ 100 ≤ (2024 : ℤ)) ∧
    ∀ date, parseUtcLocalDate (fun _ => none) " 2024-02-29 " = some date →
      civil date = ⟨2024, 2, 29⟩ ∧ date % MS_IN_A_DAY = 0 ∧
      formatDateOnly date = jsTrim " 2024-02-29 " ∧
      ∀ value', (dateOnlyMatch (jsTrimChars value'.toList)).isSome = true →
        parseUtcLocalDate (fun _ => none) value' = some date → jsTrim value' = jsTrim " 2024-02-29 " :=
  parseUtcLocalDate_calendar (fun _ => none) " 2024-02-29 " (by decide)

example : parseUtcLocalDate (fun _ => none) "2023-02-29" = none := by decide

example : parseUtcLocalDate (fun _ => none) "0099-01-01" = none := by decide

end CinemaLoyalty
