import CinemaLoyalty.BatchJobs
import CinemaLoyalty.BirthdayJob
import CinemaLoyalty.Grants
import CinemaLoyalty.Lib.Transition

/-! @svc Anniversaries | layer:property | source:src/loyalty/utils/utc-local-date.util.ts (isSameUtcMonthDay), src/loyalty/loyalty.service.ts (grantBirthdayBonuses), src/loyalty/loyalty-calculator.service.ts (isBirthdayWeek)

    A birthday falls on one day of a year, unless it is 29 February and the year has no such day:
    then it falls on none, although `isBirthdayWeek` keeps it on 1 March
    (`setUTCFullYear_leapDay`). A daily job so pays one grant in a year to everyone whose birthday the
    year has, and none to the others. -/

namespace CinemaLoyalty
open Txn Keyset Transition

/-! ### Days of the year -/

/-- 29 February. -/
def LeapDay (birthday : Instant) : Prop := (civil birthday).month = 2 ∧ (civil birthday).day = 29

/-- The year has the day of the birthday. -/
def HasAnniversary (birthday : Instant) (year : ℤ) : Prop :=
  ¬LeapDay birthday ∨ isLeapYear year = true

instance (birthday : Instant) : Decidable (LeapDay birthday) :=
  inferInstanceAs (Decidable (_ ∧ _))

instance (birthday : Instant) (year : ℤ) : Decidable (HasAnniversary birthday year) :=
  inferInstanceAs (Decidable (_ ∨ _))

/-- The birthday is celebrated all day long. -/
def FallsOn (birthday : Instant) (day : ℤ) : Prop :=
  ∀ now, utcDay now = day → isSameUtcMonthDay birthday now = true

section calendar
variable {birthday now : Instant} {day year : ℤ}

theorem isSameUtcMonthDay_iff : isSameUtcMonthDay birthday now = true ↔
    (civil birthday).month = (civil now).month ∧ (civil birthday).day = (civil now).day := by
  unfold isSameUtcMonthDay getUTCMonth getUTCDate
  rw [Bool.and_eq_true, decide_eq_true_iff, decide_eq_true_iff, sub_left_inj]

theorem fallsOn_of (h : isSameUtcMonthDay birthday now = true) : FallsOn birthday (utcDay now) := by
  intro now' hday
  rw [isSameUtcMonthDay_iff] at h ⊢
  unfold civil at h ⊢
  rwa [hday]

theorem fallsOn_iff : FallsOn birthday day ↔
    (civil birthday).month = (civilFromDays day).month ∧
      (civil birthday).day = (civilFromDays day).day := by
  have hday := utcDay_midnight day
  constructor
  · intro h
    have hsame := isSameUtcMonthDay_iff.1 (h _ hday)
    unfold civil at hsame ⊢
    rwa [hday] at hsame
  · intro h
    rw [← hday]
    refine fallsOn_of (isSameUtcMonthDay_iff.2 ?_)
    unfold civil at h ⊢
    rwa [hday]

/-- The year of an anniversary has the day. -/
theorem hasAnniversary_of (hyear : (civilFromDays day).year = year) (h : FallsOn birthday day) :
    HasAnniversary birthday year := by
  obtain ⟨hm, hd⟩ := fallsOn_iff.1 h
  cases hleap : isLeapYear year with
  | true => exact .inr hleap
  | false =>
    refine .inl fun hb => ?_
    have hle := (civil_valid day).day_le
    rw [hyear, ← hm, ← hd, hb.1, hb.2, daysInMonth_common hleap] at hle
    exact absurd hle (by decide)

/-- The anniversary is the only day of its year. -/
theorem anniversary_iff : (∃! day, (civilFromDays day).year = year ∧ FallsOn birthday day) ↔
    HasAnniversary birthday year := by
  constructor
  · rintro ⟨day, ⟨hyear, hfalls⟩, -⟩
    exact hasAnniversary_of hyear hfalls
  · intro h
    have hb : (civil birthday).Valid := civil_valid _
    have hday : (civil birthday).day ≤ daysInMonth year (civil birthday).month := by
      by_contra hmissing
      obtain ⟨hm, hd, hleap⟩ := hb.missing (not_le.1 hmissing)
      exact h.elim (fun hnot => hnot ⟨hm, hd⟩) fun htrue => by rw [hleap] at htrue; cases htrue
    have hvalid : CivilDate.Valid ⟨year, (civil birthday).month, (civil birthday).day⟩ :=
      ⟨hb.month_pos, hb.month_le, hb.day_pos, hday⟩
    refine ⟨CivilDate.days ⟨year, (civil birthday).month, (civil birthday).day⟩, ⟨?_, ?_⟩, ?_⟩
    · rw [civil_of_days hvalid]
    · rw [fallsOn_iff, civil_of_days hvalid]
      exact ⟨rfl, rfl⟩
    · rintro day ⟨hyear, hfalls⟩
      obtain ⟨hm, hd⟩ := fallsOn_iff.1 hfalls
      rw [hm, hd, ← hyear]
      exact (civil_days day).symm

/-- In a year without 29 February `isBirthdayWeek` places that birthday on 1 March. -/
theorem setUTCFullYear_leapDay (h : LeapDay birthday) (hyear : isLeapYear year = false) :
    civil (setUTCFullYear birthday year) = ⟨year, 3, 1⟩ := by
  have hmarch : CivilDate.Valid ⟨year, 3, 1⟩ :=
    ⟨show (1 : ℤ) ≤ 3 by decide, show (3 : ℤ) ≤ 12 by decide, show (1 : ℤ) ≤ 1 by decide,
      show (1 : ℤ) ≤ 31 by decide⟩
  have hfields := civil_at hmarch (time_nonneg birthday) (time_lt birthday)
  have hcarry := daysFromCivil_march hyear 1
  rw [show (28 : ℤ) + 1 = 29 from rfl] at hcarry
  unfold CivilDate.days at hfields
  unfold setUTCFullYear getUTCMonth getUTCDate
  rw [h.1, h.2, makeDay_eq (by decide) (by decide), hcarry]
  exact hfields

end calendar

/-! ### A run of the job -/

/-- The database follows by grants of the job. -/
def GrantsLead (now : Instant) : DB → DB → Prop :=
  Relation.ReflTransGen fun db db' => ∃ u, ((grantCall u).exec now db).2 = db'

/-- The job's part for one profile. -/
def grantIfBorn (now : Instant) (s : JobState) (row : ProfileKey) : JobState :=
  if (s.db.birthdayOf row.userId).any (isSameUtcMonthDay · now) then
    { s with db := ((grantCall row.userId).exec now s.db).2 }
  else s

section job
variable {rows batch : List ProfileKey} {batchSize : ℕ} {now : Instant} {db db' : DB}
  {s s' : JobState} {row : ProfileKey} {u : Uuid} {key : Uuid × String × ℤ}

theorem birthdayStep_leads {profile : Uuid × Option Instant} {r : Except JobError JobState}
    (h : birthdayStep now s profile = r) :
    (∀ {s'}, r = .ok s' → GrantsLead now s.db s'.db) ∧
      ∀ {e s'}, r = .error (e, s') → GrantsLead now s.db s'.db := by
  obtain ⟨userId, birthdayDate⟩ := profile
  simp only [birthdayStep] at h
  split at h
  · subst h
    exact ⟨fun h => by cases h; exact .refl, nofun⟩
  · split at h
    · rename_i e db' hexec
      subst h
      exact ⟨nofun, fun h => by cases h; exact .single ⟨userId, by rw [hexec]⟩⟩
    · rename_i a db' hexec
      subst h
      exact ⟨fun h => by cases h; exact .single ⟨userId, by rw [hexec]⟩, nofun⟩

theorem birthdayBatch_leads {r : Except JobError JobState} (h : birthdayBatch now s batch = r) :
    (∀ {s'}, r = .ok s' → GrantsLead now s.db s'.db) ∧
      ∀ {e s'}, r = .error (e, s') → GrantsLead now s.db s'.db := by
  unfold birthdayBatch at h
  generalize batch.map (fun row => (row.userId, s.db.birthdayOf row.userId)) = profiles at h
  induction profiles generalizing s with
  | nil =>
    cases h
    exact ⟨fun h => by cases h; exact .refl, nofun⟩
  | cons profile profiles ih =>
    rw [List.foldlM_cons] at h
    cases hstep : birthdayStep now s profile with
    | error e =>
      rw [hstep] at h
      subst h
      exact ⟨nofun, fun h => by cases h; exact (birthdayStep_leads hstep).2 rfl⟩
    | ok s₁ =>
      rw [hstep] at h
      have hfirst := (birthdayStep_leads hstep).1 rfl
      exact ⟨fun hr => hfirst.trans ((ih h).1 hr), fun hr => hfirst.trans ((ih h).2 hr)⟩

/-- However the job ends, the database follows by grants. -/
theorem grantBirthdayBonuses_leads {fuel : ℕ} {r : Except JobError (JobState × List ProfileKey)}
    (h : grantBirthdayBonuses rows batchSize now fuel s = some r) :
    GrantsLead now s.db (BatchResult.db r) := by
  have hkeeps := @cursorJob_keeps _ _ _ _ _ ProfileKey.id rows batchSize
    (JobState.selects hasBirthday) (birthdayBatch now)
    (fun s' => GrantsLead now s.db s'.db) (fun e => GrantsLead now s.db e.2.db)
    (fun hP h => hP.trans ((birthdayBatch_leads h).1 rfl))
    (fun {_ _ e} hP h => hP.trans ((birthdayBatch_leads (r := .error (e.1, e.2)) h).2 rfl))
  obtain ⟨hok, herror⟩ := @hkeeps fuel s none .refl
  unfold grantBirthdayBonuses at h
  cases r with
  | error e => exact herror h
  | ok r => exact hok h

theorem leads_birthdayOf (h : GrantsLead now db db') (u : Uuid) :
    db'.birthdayOf u = db.birthdayOf u := by
  induction h with
  | refl => rfl
  | tail _ hstep ih =>
    obtain ⟨v, rfl⟩ := hstep
    rw [grantCall_birthdayOf, ih]

theorem leads_paired (h : GrantsLead now db db') (hp : Paired db) : Paired db' := by
  induction h with
  | refl => exact hp
  | tail _ hstep ih =>
    obtain ⟨v, rfl⟩ := hstep
    exact paired_op (.call (grantCall v) now) ih

theorem grantCall_keeps (hg : (db.userBonusGrants key).isSome = true) :
    (((grantCall u).exec now db).2.userBonusGrants key).isSome = true := by
  obtain ⟨_, hstep⟩ := op_grants (.call (grantCall u) now) db
  exact hstep.keeps hg

theorem leads_keeps (h : GrantsLead now db db') (hg : (db.userBonusGrants key).isSome = true) :
    (db'.userBonusGrants key).isSome = true := by
  induction h with
  | refl => exact hg
  | tail _ hstep ih =>
    obtain ⟨v, rfl⟩ := hstep
    exact grantCall_keeps ih

/-- A row is in the filter when it has a date of birth. -/
theorem selects_birthday : s.selects hasBirthday row = (s.db.birthdayOf row.userId).isSome := by
  unfold JobState.selects DB.birthdayOf hasBirthday
  cases s.db.profiles row.userId <;> rfl

theorem birthdayOf_any (h : (db.birthdayOf u).any (isSameUtcMonthDay · now) = true) :
    ∃ p, db.profiles u = some p ∧ p.bornToday now = true := by
  unfold DB.birthdayOf at h
  cases hp : db.profiles u with
  | none =>
    rw [hp] at h
    cases h
  | some p =>
    rw [hp] at h
    exact ⟨p, rfl, h⟩

theorem grantIfBorn_birthdayOf (u : Uuid) :
    (grantIfBorn now s row).db.birthdayOf u = s.db.birthdayOf u := by
  unfold grantIfBorn
  split
  · exact grantCall_birthdayOf _ _ _ _
  · rfl

theorem grantIfBorn_room (h : s.db.HasRoom now) : (grantIfBorn now s row).db.HasRoom now := by
  unfold grantIfBorn
  split
  · exact grantCall_room h
  · exact h

theorem grantIfBorn_keeps (hg : (s.db.userBonusGrants key).isSome = true) :
    ((grantIfBorn now s row).db.userBonusGrants key).isSome = true := by
  unfold grantIfBorn
  split
  · exact grantCall_keeps hg
  · exact hg

/-- Where there is room, a profile whose day it is gets the grant. -/
theorem grantIfBorn_grants (hroom : s.db.HasRoom now)
    (hborn : (s.db.birthdayOf row.userId).any (isSameUtcMonthDay · now) = true) :
    ((grantIfBorn now s row).db.userBonusGrants (grantKey now row.userId)).isSome = true := by
  obtain ⟨p, hp, hb⟩ := birthdayOf_any hborn
  obtain ⟨a, db', hexec, hg⟩ := grantCall_succeeds hroom hp hb
  unfold grantIfBorn
  rw [if_pos hborn, hexec]
  exact hg

/-- Where there is room, a step of the loop does its part and does not fail. -/
theorem birthdayStep_eq (hroom : s.db.HasRoom now) :
    birthdayStep now s (row.userId, s.db.birthdayOf row.userId) = .ok (grantIfBorn now s row) := by
  simp only [birthdayStep, grantIfBorn]
  by_cases hborn : (s.db.birthdayOf row.userId).any (isSameUtcMonthDay · now) = true
  · obtain ⟨p, hp, hb⟩ := birthdayOf_any hborn
    obtain ⟨a, db', hexec, -⟩ := grantCall_succeeds hroom hp hb
    simp only [hborn, hexec, Bool.not_true, Bool.false_eq_true, if_false, if_true]
  · rw [Bool.not_eq_true] at hborn
    simp only [hborn, Bool.not_false, if_true, Bool.false_eq_true, if_false]

/-- Dates of birth do not change on the way, so those read with the batch are still the stored ones. -/
theorem birthdayBatch_eq (hroom : s.db.HasRoom now) :
    birthdayBatch now s batch = .ok (batch.foldl (grantIfBorn now) s) := by
  have hread : ∀ (batch : List ProfileKey) {s₁ : JobState}, s₁.db.HasRoom now →
      (∀ u, s₁.db.birthdayOf u = s.db.birthdayOf u) →
      (batch.map fun row => (row.userId, s.db.birthdayOf row.userId)).foldlM (birthdayStep now) s₁ =
        .ok (batch.foldl (grantIfBorn now) s₁) := by
    intro batch
    induction batch with
    | nil => exact fun _ _ => rfl
    | cons row batch ih =>
      intro s₁ hroom hsame
      rw [List.map_cons, List.foldlM_cons, ← hsame row.userId, birthdayStep_eq hroom, List.foldl_cons]
      exact ih (grantIfBorn_room hroom) fun u => (grantIfBorn_birthdayOf u).trans (hsame u)
  exact hread batch hroom fun _ => rfl

/-- The job is keyset work that leaves its rows in the filter. -/
theorem birthday_works : Works rows (JobState.selects hasBirthday) (birthdayBatch now)
    (grantIfBorn now) (fun s => s.db.HasRoom now) where
  batch hroom _ _ := birthdayBatch_eq hroom
  keeps hroom _ _ := grantIfBorn_room hroom
  others := fun _ _ _ _ => by
    rw [selects_birthday, selects_birthday, grantIfBorn_birthdayOf]

/-- Where there is room, the job ends and goes over every profile with a date of birth. -/
theorem grantBirthdayBonuses_eq (hrows : s.db.Lists rows) (hsize : 1 ≤ batchSize)
    (hroom : s.db.HasRoom now) : grantBirthdayBonuses rows batchSize now (rows.length + 1) s =
      some (.ok ((due ProfileKey.id rows (s.selects hasBirthday) none).foldl (grantIfBorn now) s,
        due ProfileKey.id rows (s.selects hasBirthday) none)) := by
  have hlen : (due ProfileKey.id rows (s.selects hasBirthday) none).length < rows.length + 1 := by
    unfold due
    rw [(descending_perm ProfileKey.id _).length_eq]
    exact Nat.lt_succ_of_le (List.length_filter_le _ _)
  unfold grantBirthdayBonuses
  rw [birthday_works.cursorJob_eq hrows.ids (fun _ _ hc => by
    rwa [selects_birthday, grantIfBorn_birthdayOf, ← selects_birthday]) _ hroom
    (fun _ h => by cases h)]
  exact birthday_works.job_eq hrows.ids hsize _ none hroom hlen

/-- Everyone on the way whose day it is has the grant in the end. -/
theorem foldl_grants {batch : List ProfileKey} {s : JobState} (hroom : s.db.HasRoom now)
    (hrow : row ∈ batch) (hborn : (s.db.birthdayOf row.userId).any (isSameUtcMonthDay · now) = true) :
    ((batch.foldl (grantIfBorn now) s).db.userBonusGrants (grantKey now row.userId)).isSome = true := by
  have hstays : ∀ {s : JobState} (batch : List ProfileKey),
      (s.db.userBonusGrants (grantKey now row.userId)).isSome = true →
      ((batch.foldl (grantIfBorn now) s).db.userBonusGrants
        (grantKey now row.userId)).isSome = true := by
    intro s batch hg
    induction batch generalizing s with
    | nil => exact hg
    | cons r batch ih => exact ih (grantIfBorn_keeps hg)
  induction batch generalizing s with
  | nil => cases hrow
  | cons r batch ih =>
    rw [List.foldl_cons]
    rcases List.mem_cons.1 hrow with rfl | hrow
    · exact hstays batch (grantIfBorn_grants hroom hborn)
    · exact ih (grantIfBorn_room hroom) hrow (by rwa [grantIfBorn_birthdayOf])

/-- Where there is room, the job leaves no birthday of the day without this year's grant. -/
theorem grantBirthdayBonuses_pays (hrows : s.db.Lists rows) (hsize : 1 ≤ batchSize)
    (hroom : s.db.HasRoom now) {r : Except JobError (JobState × List ProfileKey)}
    (h : grantBirthdayBonuses rows batchSize now (rows.length + 1) s = some r)
    (hborn : (s.db.birthdayOf u).any (isSameUtcMonthDay · now) = true) :
    ((BatchResult.db r).userBonusGrants (grantKey now u)).isSome = true := by
  obtain ⟨p, hp, hb⟩ := birthdayOf_any hborn
  obtain ⟨row, hrow, rfl⟩ := List.mem_map.1 ((hrows.listed u).1 (by rw [hp]; rfl))
  have hsel : s.selects hasBirthday row = true := by
    rw [selects_birthday]
    cases hdate : s.db.birthdayOf row.userId with
    | none =>
      rw [hdate] at hborn
      cases hborn
    | some d => rfl
  rw [grantBirthdayBonuses_eq hrows hsize hroom] at h
  cases h
  exact foldl_grants hroom (mem_due.2 ⟨hrow, (fun _ h => by cases h), hsel⟩) hborn

end job

/-! ### Years of runs -/

/-- The database and the clock readings of the runs so far. -/
structure BirthdayRuns where
  db : DB
  ran : List Instant

/-- An operation of the service, or a run of the job over the table as it stands. -/
inductive BirthdayEvent
  | op (op : Op)
  | job (rows : List ProfileKey) (now : Instant)

/-- The job among the other operations. -/
def birthdayRuns (batchSize : ℕ) (db : DB) : System BirthdayRuns BirthdayEvent where
  first := { db, ran := [] }
  step
    | .op op, s => some { s with db := op.exec s.db }
    | .job rows now, s =>
      (grantBirthdayBonuses rows batchSize now (rows.length + 1) ⟨s.db, []⟩).map fun r =>
        { db := BatchResult.db r, ran := s.ran ++ [now] }

/-- The user's date of birth stays as it is, and a run finds room for its grants. -/
def Celebrated (userId : Uuid) (birthday : Instant) : BirthdayEvent → BirthdayRuns → Prop
  | .op op, s => (op.exec s.db).birthdayOf userId = some birthday
  | .job rows now, s =>
    s.db.birthdayOf userId = some birthday ∧ s.db.Lists rows ∧ s.db.HasRoom now

/-- Exactly one birthday bonus for the year: one ledger row pays the year's grant. -/
def DB.PaidOnce (db : DB) (userId : Uuid) (year : ℤ) : Prop :=
  ∃! t, t ∈ db.birthdayRows ∧ ∃ g,
    db.userBonusGrants (userId, BIRTHDAY_BONUS_GRANT_TYPE, year) = some g ∧ Pays t userId g

/-- What a run keeps: the books, a grant for every run on the birthday, and no grant of the year
    without an anniversary in it. -/
structure YearKept (userId : Uuid) (birthday : Instant) (year : ℤ) (s : BirthdayRuns) : Prop where
  paired : Paired s.db
  celebrated : ∀ now ∈ s.ran, isSameUtcMonthDay birthday now = true →
    (s.db.userBonusGrants (grantKey now userId)).isSome = true
  only : (s.db.userBonusGrants (userId, BIRTHDAY_BONUS_GRANT_TYPE, year)).isSome = true →
    HasAnniversary birthday year

section years
variable {userId : Uuid} {birthday : Instant} {year : ℤ} {batchSize : ℕ} {db db' : DB}

theorem paidOnce_iff (h : GrantsPaid db) : db.PaidOnce userId year ↔
    (db.userBonusGrants (userId, BIRTHDAY_BONUS_GRANT_TYPE, year)).isSome = true := by
  constructor
  · rintro ⟨t, ⟨-, g, hg, -⟩, -⟩
    rw [hg]
    rfl
  · intro hsome
    obtain ⟨g, hg⟩ := Option.isSome_iff_exists.1 hsome
    obtain ⟨-, -, t, ⟨ht, hpays⟩, huniq⟩ := h.paid _ _ _ g hg
    refine ⟨t, ⟨ht, g, hg, hpays⟩, ?_⟩
    rintro t' ⟨ht', g', hg', hpays'⟩
    rw [hg] at hg'
    cases hg'
    exact huniq t' ⟨ht', hpays'⟩

/-- An operation that leaves the date of birth grants for the year on an anniversary only. -/
theorem only_op (op : Op) (hborn : (op.exec db).birthdayOf userId = some birthday)
    (h : (db.userBonusGrants (userId, BIRTHDAY_BONUS_GRANT_TYPE, year)).isSome = true →
      HasAnniversary birthday year)
    (hg : ((op.exec db).userBonusGrants (userId, BIRTHDAY_BONUS_GRANT_TYPE, year)).isSome = true) :
    HasAnniversary birthday year := by
  cases hn : db.userBonusGrants (userId, BIRTHDAY_BONUS_GRANT_TYPE, year) with
  | some g => exact h (by rw [hn]; rfl)
  | none =>
    obtain ⟨now, hstep⟩ := op_grants op db
    obtain ⟨hyear, p, hp, htoday⟩ := hstep.new hn hg
    have hdate : p.birthdayDate = some birthday := by
      simpa only [DB.birthdayOf, hp, Option.bind_some] using hborn
    rw [hdate] at htoday
    exact hasAnniversary_of hyear.symm (fallsOn_of htoday)

theorem only_leads {now : Instant} (hlead : GrantsLead now db db')
    (hborn : db.birthdayOf userId = some birthday)
    (h : (db.userBonusGrants (userId, BIRTHDAY_BONUS_GRANT_TYPE, year)).isSome = true →
      HasAnniversary birthday year) :
    (db'.userBonusGrants (userId, BIRTHDAY_BONUS_GRANT_TYPE, year)).isSome = true →
      HasAnniversary birthday year := by
  induction hlead with
  | refl => exact h
  | @tail x y hlead hstep ih =>
    obtain ⟨u, rfl⟩ := hstep
    have hkept : ((grantCall u).exec now x).2.birthdayOf userId = some birthday := by
      rw [grantCall_birthdayOf, leads_birthdayOf hlead, hborn]
    exact only_op (.call (grantCall u) now) hkept ih

theorem job_step {rows : List ProfileKey} {now : Instant} {s : BirthdayRuns}
    {r : Except JobError (JobState × List ProfileKey)}
    (h : grantBirthdayBonuses rows batchSize now (rows.length + 1) ⟨s.db, []⟩ = some r) :
    (birthdayRuns batchSize db).step (.job rows now) s =
      some { db := BatchResult.db r, ran := s.ran ++ [now] } := by
  simp only [birthdayRuns, h, Option.map_some]

theorem yearKept_step (hsize : 1 ≤ batchSize) {e : BirthdayEvent} {s s' : BirthdayRuns}
    (hok : Celebrated userId birthday e s) (hs : (birthdayRuns batchSize db).step e s = some s')
    (h : YearKept userId birthday year s) : YearKept userId birthday year s' := by
  cases e with
  | op op =>
    cases hs
    refine ⟨paired_op op h.paired, fun now hnow hsame => ?_, only_op op hok h.only⟩
    obtain ⟨_, hstep⟩ := op_grants op s.db
    exact hstep.keeps (h.celebrated now hnow hsame)
  | job rows now =>
    obtain ⟨hborn, hrows, hroom⟩ := hok
    obtain ⟨r, hr, rfl⟩ := Option.map_eq_some_iff.1 hs
    have hlead := grantBirthdayBonuses_leads hr
    refine ⟨leads_paired hlead h.paired, fun now' hnow' hsame => ?_, only_leads hlead hborn h.only⟩
    rcases List.mem_append.1 hnow' with hold | hnew
    · exact leads_keeps hlead (h.celebrated now' hold hsame)
    · rw [List.mem_singleton.1 hnew] at hsame ⊢
      exact grantBirthdayBonuses_pays (s := ⟨s.db, []⟩) hrows hsize hroom hr
        (by rw [hborn]; exact hsame)

/-- A birthday has exactly one day in a year, unless it is 29 February and the year has none. And
    when a user's date of birth stays as it is, the job has run on the days of the year on which it
    falls, and every run has found room for its grants, then the user has exactly one bonus for the
    year in the first case and none in the other: whatever else happens between the runs. -/
theorem birthday_bonus_iff (birthday : Instant) (year : ℤ) :
    ((∃! day, (civilFromDays day).year = year ∧ FallsOn birthday day) ↔
      HasAnniversary birthday year) ∧
    ∀ (before : List Op) (userId : Uuid) (batchSize : ℕ), 1 ≤ batchSize →
      (DB.empty.runOps before).userBonusGrants (userId, BIRTHDAY_BONUS_GRANT_TYPE, year) = none →
      ∀ s, (birthdayRuns batchSize (DB.empty.runOps before)).ReachedBy
          (Celebrated userId birthday) s →
        (∀ day, (civilFromDays day).year = year → FallsOn birthday day →
          ∃ now ∈ s.ran, utcDay now = day) →
        (s.db.PaidOnce userId year ↔ HasAnniversary birthday year) := by
  refine ⟨anniversary_iff, fun before userId batchSize hsize hnone s hreach hdaily => ?_⟩
  have hfirst : YearKept userId birthday year
      (birthdayRuns batchSize (DB.empty.runOps before)).first := by
    refine ⟨run_paired before paired_empty, fun _ h => (by cases h), fun h => ?_⟩
    have hempty : ((DB.empty.runOps before).userBonusGrants
      (userId, BIRTHDAY_BONUS_GRANT_TYPE, year)).isSome = true := h
    rw [hnone] at hempty
    cases hempty
  have hkept := hreach.invariant hfirst fun hok hs h => yearKept_step hsize hok hs h
  rw [paidOnce_iff hkept.paired.2]
  refine ⟨hkept.only, fun hyear => ?_⟩
  obtain ⟨day, ⟨hin, hfalls⟩, -⟩ := anniversary_iff.2 hyear
  obtain ⟨now, hnow, hday⟩ := hdaily day hin hfalls
  have hgrant := hkept.celebrated now hnow (hfalls now hday)
  have hyear' : getUtcLocalYear now = year := by
    unfold getUtcLocalYear getUTCFullYear civil
    rw [hday, hin]
  unfold grantKey at hgrant
  rwa [hyear'] at hgrant

end years

/-- A date of birth set later in its year. -/
def bornInJune : Op :=
  .call (.processUserDateOfBirthSet (fun _ => none) Uuid.nil.asText "1970-06-15") (dateUTC 1970 11 1)

theorem bornInJune_profiles (u : Uuid) : (DB.empty.runOps [bornInJune]).profiles u =
    if u = Uuid.nil then some { birthdayDate := some (dateUTC 1970 5 15) } else none := by
  have hdb : DB.empty.runOps [bornInJune] =
      DB.empty.birthdaySet Uuid.nil.asText (dateUTC 1970 5 15) := rfl
  have hid : Uuid.nil.asText.value = Uuid.nil := rfl
  rw [hdb]
  simp only [DB.birthdaySet, hid, profiles_updateProfile, ensureProfile_profiles]
  by_cases hu : u = Uuid.nil <;> simp [hu, DB.empty, DB.profileOrDefault]

theorem birthday_bonus_june :
    ∃ s, (birthdayRuns 500 (DB.empty.runOps [bornInJune])).ReachedBy
        (Celebrated Uuid.nil (dateUTC 1970 5 15)) s ∧ s.db.PaidOnce Uuid.nil 1971 := by
  have hprofile : ∀ u p, (DB.empty.runOps [bornInJune]).profiles u = some p →
      u = Uuid.nil ∧ p = { birthdayDate := some (dateUTC 1970 5 15) } := by
    intro u p hp
    rw [bornInJune_profiles] at hp
    split at hp
    · exact ⟨‹_›, (Option.some.inj hp).symm⟩
    · cases hp
  have hborn : (DB.empty.runOps [bornInJune]).birthdayOf Uuid.nil = some (dateUTC 1970 5 15) := by
    unfold DB.birthdayOf
    rw [bornInJune_profiles]
    rfl
  have hrows : (DB.empty.runOps [bornInJune]).Lists [⟨Uuid.nil, Uuid.nil⟩] := by
    refine ⟨by decide, by decide, fun u => ?_⟩
    rw [bornInJune_profiles]
    by_cases hu : u = Uuid.nil <;> simp [hu]
  have hroom : (DB.empty.runOps [bornInJune]).HasRoom (dateUTC 1971 5 15) := by
    intro u p hp _ _
    rw [(hprofile u p hp).2]
    decide
  obtain ⟨r, hr⟩ : ∃ r, grantBirthdayBonuses [⟨Uuid.nil, Uuid.nil⟩] 500 (dateUTC 1971 5 15) 2
      ⟨DB.empty.runOps [bornInJune], []⟩ = some r :=
    ⟨_, grantBirthdayBonuses_eq hrows (by decide) hroom⟩
  have hreach : (birthdayRuns 500 (DB.empty.runOps [bornInJune])).ReachedBy
      (Celebrated Uuid.nil (dateUTC 1970 5 15)) ⟨BatchResult.db r, [dateUTC 1971 5 15]⟩ :=
    .single ⟨.job [⟨Uuid.nil, Uuid.nil⟩] (dateUTC 1971 5 15), ⟨hborn, hrows, hroom⟩,
      job_step (s := ⟨DB.empty.runOps [bornInJune], []⟩) hr⟩
  have hyear : HasAnniversary (dateUTC 1970 5 15) 1971 := by decide
  refine ⟨_, hreach, ((birthday_bonus_iff (dateUTC 1970 5 15) 1971).2 [bornInJune] Uuid.nil 500
    (by decide) rfl _ hreach fun day hin hfalls => ?_).2 hyear⟩
  exact ⟨_, List.mem_singleton_self _, (anniversary_iff.2 hyear).unique
    ⟨by decide, fallsOn_of (by decide)⟩ ⟨hin, hfalls⟩⟩

/-- Nobody born on 29 February has a birthday in 2001. -/
theorem leapDay_lost :
    ¬∃! day, (civilFromDays day).year = 2001 ∧ FallsOn (dateUTC 2000 1 29) day :=
  fun h => absurd (anniversary_iff.1 h) (by decide)

end CinemaLoyalty
