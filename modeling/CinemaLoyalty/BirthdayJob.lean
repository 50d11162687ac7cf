import CinemaLoyalty.Jobs
import CinemaLoyalty.Service

/-! @svc BirthdayJob | layer:model | source:src/loyalty/loyalty.service.ts (grantBirthdayBonuses)

    The daily birthday job: it pages through the profiles with a date of birth, each page starting
    behind the last row of the page before, and grants to those whose day it is. The clock is read
    once, at the start. A grant that fails ends the job. -/

namespace CinemaLoyalty
open Txn

/-! ### Stored ids -/

theorem toLower_hexDigit {c : Char} (h : isHexDigit c = true) : c.toLower = c := by
  have hnot : ¬('A' ≤ c ∧ c ≤ 'Z') := by
    rintro ⟨hlo, hhi⟩
    simp only [isHexDigit, Char.isDigit, Bool.or_eq_true, Bool.and_eq_true, decide_eq_true_eq,
      Char.le_def] at *
    rcases h with ⟨_, h⟩ | ⟨h, _⟩
    · exact absurd (UInt32.le_trans hlo h) (by decide)
    · exact absurd (UInt32.le_trans h hhi) (by decide)
  unfold Char.toLower
  split
  · rename_i h'
    exact absurd h' hnot
  · rfl

theorem toLowerCase_canonical (u : Uuid) : toLowerCase u.text = u.text := by
  have hall : ∀ c ∈ u.text.toList, c.toLower = c := by
    intro c hc
    have hcanon := u.canonical
    simp only [isUuidChars, Bool.and_eq_true, List.all_eq_true] at hcanon
    obtain ⟨i, hi, rfl⟩ := List.mem_iff_getElem.1 hc
    have hdigit := hcanon.2 (u.text.toList[i], i) (List.mem_zipIdx_iff_getElem?.2 (by simp [hi]))
    simp only at hdigit
    split at hdigit
    · rw [decide_eq_true_eq] at hdigit
      rw [hdigit]
      rfl
    · exact toLower_hexDigit hdigit
  unfold toLowerCase
  rw [List.map_congr_left hall, List.map_id', String.ofList_toList]

/-- The text of a stored id. -/
def Uuid.asText (u : Uuid) : UuidText where
  text := u.text
  value := u
  named := by
    unfold Uuid.ofText
    simp only [toLowerCase_canonical, u.canonical, dif_pos]

/-! ### The job -/

/-- The filter of `grantBirthdayBonuses`. -/
def hasBirthday (p : LoyaltyProfile) : Bool := p.birthdayDate.isSome

/-- The stored date of birth. -/
def DB.birthdayOf (db : DB) (u : Uuid) : Option Instant := (db.profiles u).bind (·.birthdayDate)

/-- The grant of one user. -/
def grantCall (u : Uuid) : Call := .grantBirthdayBonusForUser u.asText

/-- The loop over a batch, for one profile as it was read. -/
def birthdayStep (now : Instant) (s : JobState) :
    Uuid × Option Instant → Except JobError JobState
  | (userId, birthdayDate) =>
    if !birthdayDate.any (isSameUtcMonthDay · now) then .ok s
    else
      match (grantCall userId).exec now s.db with
      | (.error e, db) => .error (e, { s with db })
      | (.ok _, db) => .ok { s with db }

/-- A batch of `grantBirthdayBonuses`; the dates of birth are those of the batch as it was read. -/
def birthdayBatch (now : Instant) (s : JobState) (batch : List ProfileKey) :
    Except JobError JobState :=
  (batch.map fun row => (row.userId, s.db.birthdayOf row.userId)).foldlM (birthdayStep now) s

/-- `grantBirthdayBonuses`. -/
def grantBirthdayBonuses (rows : List ProfileKey) (batchSize : ℕ) (now : Instant) (fuel : ℕ)
    (s : JobState) : BatchResult :=
  Keyset.cursorJob ProfileKey.id rows batchSize (JobState.selects hasBirthday) (birthdayBatch now)
    fuel s none

/-- The database a job leaves, however it ends. -/
def BatchResult.db : Except JobError (JobState × List ProfileKey) → DB
  | .ok (s, _) => s.db
  | .error (_, s) => s.db

/-! ### What it does -/

section effect
variable {db : DB} {now : Instant} {s : JobState} {u : Uuid} {p : LoyaltyProfile}

/-- A date of birth that falls on the day of the clock. -/
def LoyaltyProfile.bornToday (now : Instant) (p : LoyaltyProfile) : Bool :=
  p.birthdayDate.any (isSameUtcMonthDay · now)

/-- The key of this year's grant. -/
def grantKey (now : Instant) (u : Uuid) : Uuid × String × ℤ :=
  (u, BIRTHDAY_BONUS_GRANT_TYPE, getUtcLocalYear now)

/-- The counters of everyone the job grants to have room for the points. -/
def DB.HasRoom (db : DB) (now : Instant) : Prop :=
  ∀ u p, db.profiles u = some p → p.bornToday now = true →
    db.userBonusGrants (grantKey now u) = none →
    (p.birthdayGrant p.birthdayTier now).inRange = true

theorem run_grantBirthdayBonusForUser {userId : UuidText} (hp : db.profiles userId.value = some p)
    (hborn : p.bornToday now = true) (hn : db.userBonusGrants (grantKey now userId.value) = none)
    (hr : (p.birthdayGrant p.birthdayTier now).inRange = true) :
    db.run (grantBirthdayBonusForUser userId now) =
      .ok (.granted LOYALTY_RULES.BIRTHDAY_BONUS_POINTS
        (p.balance + LOYALTY_RULES.BIRTHDAY_BONUS_POINTS), db.birthdayGranted userId p now) := by
  have hrow : (birthdayRow userId (p.birthdayGrant p.birthdayTier now).balance now).inRange = true := by
    simp only [LoyaltyProfile.inRange, Bool.and_eq_true] at hr
    unfold PointsTransaction.inRange birthdayRow
    simp only [hr.1.1.1]
    decide
  have htext : isTextColumn ("Birthday bonus for " ++ toString (getUtcLocalYear now)) = true := by
    rw [isTextColumn_append, toString_column]
    decide
  have hborn' : p.birthdayDate.any (isSameUtcMonthDay · now) = true := hborn
  have htier : resolveNewTier p.tier p.yearVisits
      (p.yearPoints + LOYALTY_RULES.BIRTHDAY_BONUS_POINTS) = p.birthdayTier := rfl
  unfold grantKey at hn
  unfold grantBirthdayBonusForUser grantBirthdayBonusInTransaction
  rw [run_lock]
  simp only [hp, Option.isSome_some, Bool.not_true, Bool.false_eq_true, if_false, Prog.call_bind,
    run_findGrant, hn, Option.isSome_none, run_findProfile, hborn', htier]
  rw [run_updateProfile hp hr rfl, run_createTransaction hrow htext]
  refine (run_createGrant (by simpa using hn)).trans ?_
  rw [run_announceTier]
  rfl

/-- The grant of a user succeeds when there is room: afterwards the user has this year's grant. -/
theorem grantCall_succeeds (hroom : db.HasRoom now) (hp : db.profiles u = some p)
    (hborn : p.bornToday now = true) :
    ∃ a db', (grantCall u).exec now db = (.ok a, db') ∧
      (db'.userBonusGrants (grantKey now u)).isSome = true := by
  cases hn : db.userBonusGrants (grantKey now u) with
  | none =>
    have hrun := @run_grantBirthdayBonusForUser db now p u.asText hp hborn hn (hroom u p hp hborn hn)
    have hcall : db.run ((grantCall u).tx now) = .ok (_, db.birthdayGranted u.asText p now) :=
      (run_wrap_eq (grantBirthdayBonusForUser u.asText now) .birthday db).trans (by rw [hrun]; rfl)
    refine ⟨_, _, exec_ok hcall, ?_⟩
    simp [DB.birthdayGranted, grantKey, Uuid.asText]
  | some g =>
    have hrun : db.run (grantBirthdayBonusForUser u.asText now) = .ok (.already_granted, db) := by
      have hg : db.userBonusGrants (u, BIRTHDAY_BONUS_GRANT_TYPE, getUtcLocalYear now) = some g := hn
      unfold grantBirthdayBonusForUser grantBirthdayBonusInTransaction
      rw [run_lock]
      simp [Uuid.asText, hp, hg]
    have hcall : db.run ((grantCall u).tx now) = .ok (_, db) :=
      (run_wrap_eq (grantBirthdayBonusForUser u.asText now) .birthday db).trans (by rw [hrun]; rfl)
    exact ⟨_, _, exec_ok hcall, by rw [hn]; rfl⟩

/-- A grant leaves every date of birth as it is. -/
theorem grantCall_birthdayOf (u v : Uuid) (now : Instant) (db : DB) :
    ((grantCall u).exec now db).2.birthdayOf v = db.birthdayOf v := by
  rcases exec_cases (grantCall u) now db with ⟨e, -, he⟩ | ⟨a, db', hr, he⟩
  · rw [he]
  · rw [he]
    obtain ⟨res, hrun, -⟩ := run_wrap hr
    cases grantBirthdayBonusForUser_ok hrun with
    | unchanged => rfl
    | @granted p hn hp hb =>
      unfold DB.birthdayOf
      by_cases hv : v = u
      · subst hv
        have hp' : db.profiles v = some p := hp
        simp [DB.birthdayGranted, Uuid.asText, hp', LoyaltyProfile.birthdayGrant]
      · simp [DB.birthdayGranted, Uuid.asText, hv]

/-- A grant to one user leaves room for the others. -/
theorem grantCall_room (hroom : db.HasRoom now) :
    ((grantCall u).exec now db).2.HasRoom now := by
  rcases exec_cases (grantCall u) now db with ⟨e, -, he⟩ | ⟨a, db', hr, he⟩
  · rw [he]
    exact hroom
  · rw [he]
    obtain ⟨res, hrun, -⟩ := run_wrap hr
    cases grantBirthdayBonusForUser_ok hrun with
    | unchanged => exact hroom
    | @granted p hn hp hb =>
      intro v q hq hborn hnone
      by_cases hv : v = u
      · subst hv
        simp [DB.birthdayGranted, grantKey, Uuid.asText] at hnone
      · refine hroom v q ?_ hborn ?_
        · simpa [DB.birthdayGranted, Uuid.asText, hv] using hq
        · simpa [DB.birthdayGranted, grantKey, Uuid.asText, hv] using hnone

end effect

end CinemaLoyalty
