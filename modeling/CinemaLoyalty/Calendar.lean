import CinemaLoyalty.Lib.Strip
import Mathlib.Data.Int.Basic
import Mathlib.Tactic.Common

/-! @svc Calendar | layer:model | source:src/loyalty/utils/utc-local-date.util.ts

    UTC dates as ECMAScript computes them. An instant is a number of milliseconds since the epoch;
    its calendar fields come from the proleptic Gregorian calendar, `Date.UTC` carries overflowing
    months and days and maps the years 0 to 99 to 1900 to 1999. The process runs in UTC, so the
    local getters and setters of `addYears` are the UTC ones. -/

namespace CinemaLoyalty

/-- `Date`: milliseconds since 1970-01-01T00:00:00Z. -/
abbrev Instant := ℤ

/-- `TIME_CONSTANTS.MS_IN_A_DAY`. -/
def MS_IN_A_DAY : ℤ := 1000 * 60 * 60 * 24

/-- Calendar fields of a day; `month` runs from 1 to 12. -/
structure CivilDate where
  year : ℤ
  month : ℤ
  day : ℤ
  deriving DecidableEq, Repr

/-- Days from the epoch to a date of the proleptic Gregorian calendar (years begin in March). -/
def daysFromCivil (year month day : ℤ) : ℤ :=
  let y := if month ≤ 2 then year - 1 else year
  let era := y / 400
  let yoe := y - era * 400
  let doy := (153 * (if month > 2 then month - 3 else month + 9) + 2) / 5 + day - 1
  era * 146097 + (yoe * 365 + yoe / 4 - yoe / 100 + doy) - 719468

/-- The date of a day counted from the epoch. -/
def civilFromDays (days : ℤ) : CivilDate :=
  let z := days + 719468
  let era := z / 146097
  let doe := z - era * 146097
  let yoe := (doe - doe / 1460 + doe / 36524 - doe / 146096) / 365
  let doy := doe - (365 * yoe + yoe / 4 - yoe / 100)
  let mp := (5 * doy + 2) / 153
  let month := if mp < 10 then mp + 3 else mp - 9
  { year := yoe + era * 400 + (if month ≤ 2 then 1 else 0)
    month := month
    day := doy - (153 * mp + 2) / 5 + 1 }

/-- The UTC day an instant falls on. -/
def utcDay (date : Instant) : ℤ := date / MS_IN_A_DAY

/-- The UTC calendar fields of an instant. -/
def civil (date : Instant) : CivilDate := civilFromDays (utcDay date)

/-- `getUTCFullYear`. -/
def getUTCFullYear (date : Instant) : ℤ := (civil date).year

/-- `getUTCMonth`, counted from 0. -/
def getUTCMonth (date : Instant) : ℤ := (civil date).month - 1

/-- `getUTCDate`. -/
def getUTCDate (date : Instant) : ℤ := (civil date).day

/-- ECMAScript `MakeDay`: months counted from 0, overflowing months and days carry. -/
def makeDay (year month day : ℤ) : ℤ :=
  daysFromCivil (year + month / 12) (month % 12 + 1) 1 + (day - 1)

/-- `Date.UTC`. -/
def dateUTC (year month day : ℤ) : Instant :=
  makeDay (if 0 ≤ year ∧ year ≤ 99 then 1900 + year else year) month day * MS_IN_A_DAY

/-- `setUTCFullYear`: month, day and time of day are kept, 29 February carries to 1 March. -/
def setUTCFullYear (date : Instant) (year : ℤ) : Instant :=
  makeDay year (getUTCMonth date) (getUTCDate date) * MS_IN_A_DAY + date % MS_IN_A_DAY

/-- `setDate`: the day of the month, 0 being the last day of the month before. -/
def setDate (date : Instant) (day : ℤ) : Instant :=
  makeDay (getUTCFullYear date) (getUTCMonth date) day * MS_IN_A_DAY + date % MS_IN_A_DAY

/-- `padStart` with zeros. -/
def padStart (width n : ℕ) : String :=
  let digits := Nat.toDigits 10 n
  String.ofList (List.replicate (width - digits.length) '0' ++ digits)

/-- `toISOString`: years of four digits as they are, others signed and of six. -/
def toISOString (date : Instant) : String :=
  let year := getUTCFullYear date
  let yearText :=
    if 0 ≤ year ∧ year ≤ 9999 then padStart 4 year.toNat
    else (if year < 0 then "-" else "+") ++ padStart 6 year.natAbs
  let ms := (date % MS_IN_A_DAY).toNat
  yearText ++ "-" ++ padStart 2 (civil date).month.toNat ++ "-" ++ padStart 2 (civil date).day.toNat ++
    "T" ++ padStart 2 (ms / 3600000) ++ ":" ++ padStart 2 (ms / 60000 % 60) ++ ":" ++
    padStart 2 (ms / 1000 % 60) ++ "." ++ padStart 3 (ms % 1000) ++ "Z"

/-! ### utc-local-date.util.ts -/

/-- UTC midnight of the day of an instant. -/
def toUtcLocalDate (date : Instant) : Instant :=
  dateUTC (getUTCFullYear date) (getUTCMonth date) (getUTCDate date)

/-- ECMAScript white space and line terminators, as `trim` strips them. -/
def jsWhitespace (c : Char) : Bool :=
  c ∈ ['\t', '\n', '\u000b', '\u000c', '\r', ' ', '\u00a0', '\u1680', '\u2028', '\u2029', '\u202f',
    '\u205f', '\u3000', '\ufeff'] || ('\u2000' ≤ c && c ≤ '\u200a')

/-- `String.prototype.trim`, on the characters. -/
def jsTrimChars (cs : List Char) : List Char :=
  ((cs.dropWhile jsWhitespace).reverse.dropWhile jsWhitespace).reverse

/-- `String.prototype.trim`. -/
def jsTrim (s : String) : String := String.ofList (jsTrimChars s.toList)

/-- Text without white space is its own trimming. -/
theorem jsTrim_self {s : String} (h : ∀ c ∈ s.toList, jsWhitespace c = false) : jsTrim s = s := by
  have hchars : jsTrimChars s.toList = s.toList := Strip.strip_self h
  rw [jsTrim, hchars, String.ofList_toList]

/-- Trimming twice is trimming once. -/
theorem jsTrim_idem (s : String) : jsTrim (jsTrim s) = jsTrim s := by
  unfold jsTrim
  rw [String.toList_ofList]
  exact congrArg String.ofList (Strip.strip_idem jsWhitespace s.toList)

/-- The number written by decimal digits. -/
def digitsValue (cs : List Char) : ℤ :=
  cs.foldl (fun n c => 10 * n + ((c.toNat : ℤ) - 48)) 0

/-- `DATE_ONLY_PATTERN`: the year, month and day of a text `dddd-dd-dd`. -/
def dateOnlyMatch : List Char → Option (ℤ × ℤ × ℤ)
  | [y₁, y₂, y₃, y₄, '-', m₁, m₂, '-', d₁, d₂] =>
    if [y₁, y₂, y₃, y₄, m₁, m₂, d₁, d₂].all Char.isDigit then
      some (digitsValue [y₁, y₂, y₃, y₄], digitsValue [m₁, m₂], digitsValue [d₁, d₂])
    else none
  | _ => none

/-- `parseUtcLocalDate`. `newDate` is `new Date(text)` for texts outside the pattern, `none` being an
    invalid date; ECMAScript leaves these texts to the implementation. -/
def parseUtcLocalDate (newDate : String → Option Instant) (value : String) : Option Instant :=
  match dateOnlyMatch (jsTrimChars value.toList) with
  | some (year, month, day) =>
    let date := dateUTC year (month - 1) day
    if getUTCFullYear date ≠ year ∨ getUTCMonth date ≠ month - 1 ∨ getUTCDate date ≠ day then none
    else some date
  | none => (newDate (jsTrim value)).map toUtcLocalDate

/-- Strictly after the UTC day of the reference. -/
def isFutureUtcLocalDate (date reference : Instant) : Bool :=
  decide (date > toUtcLocalDate reference)

/-- Same month and day of the month in UTC. -/
def isSameUtcMonthDay (date reference : Instant) : Bool :=
  getUTCMonth date = getUTCMonth reference && getUTCDate date = getUTCDate reference

/-- The UTC year. -/
def getUtcLocalYear (date : Instant) : ℤ := getUTCFullYear date

/-- A UTC month, written `YYYY-MM` in the database. -/
structure MonthKey where
  year : ℤ
  month : ℤ
  deriving DecidableEq, Repr

/-- Order of the texts `YYYY-MM` (years of four digits). -/
def MonthKey.before (a b : MonthKey) : Bool :=
  decide (a.year < b.year) || (a.year = b.year && decide (a.month < b.month))

/-- The first seven characters of `toISOString`, for years of four digits. -/
def getUtcMonthKey (date : Instant) : MonthKey := ⟨getUTCFullYear date, (civil date).month⟩

/-- `LoyaltyCalculatorService.addYears`: a day that the target month lacks becomes its last day. -/
def addYears (date : Instant) (years : ℤ) : Instant :=
  let result := setUTCFullYear date (getUTCFullYear date + years)
  if getUTCMonth result ≠ getUTCMonth date then setDate result 0 else result

example : civil (dateUTC 2024 1 29) = ⟨2024, 2, 29⟩ := by decide

example : toISOString (dateUTC 2024 1 29 + 3723004) = "2024-02-29T01:02:03.004Z" := by decide

example : addYears (dateUTC 2024 1 29) 1 = dateUTC 2025 1 28 := by decide

end CinemaLoyalty
