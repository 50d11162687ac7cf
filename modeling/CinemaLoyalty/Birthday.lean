import CinemaLoyalty.Purchase

/-! @svc Birthday | layer:model | source:src/loyalty/loyalty.service.ts (processUserDateOfBirthSet, grantBirthdayBonusForUser, grantBirthdayBonusInTransaction)

    The date-of-birth setter and the yearly birthday grant, which the setter and the scheduled job
    share. -/

namespace CinemaLoyalty
open Txn

/-- `BirthdayGrantResult`, and the setter's `saved`. -/
inductive BirthdayGrantResult
  | granted (points balanceAfter : ℤ)
  | already_granted
  | not_birthday
  | profile_not_found
  | saved
  deriving DecidableEq

/-- The profile update of a grant. -/
def LoyaltyProfile.birthdayGrant (newTier : Tier) (now : Instant) (p : LoyaltyProfile) :
    LoyaltyProfile :=
  { p with
    balance := p.balance + LOYALTY_RULES.BIRTHDAY_BONUS_POINTS
    lifetimePoints := p.lifetimePoints + LOYALTY_RULES.BIRTHDAY_BONUS_POINTS
    yearPoints := p.yearPoints + LOYALTY_RULES.BIRTHDAY_BONUS_POINTS
    tier := newTier
    lastActivityAt := some now
    balanceExpiresAt := some (addYears now 1) }

/-- The ledger row of a grant. -/
def birthdayRow (userId : UuidText) (newBalance : ℤ) (now : Instant) : PointsTransaction where
  userId := userId.value
  type := .EARN_BIRTHDAY
  points := LOYALTY_RULES.BIRTHDAY_BONUS_POINTS
  balanceAfter := newBalance
  description := "Birthday bonus for " ++ toString (getUtcLocalYear now)
  createdAt := now

/-- `grantBirthdayBonusInTransaction`. -/
def grantBirthdayBonusInTransaction (userId : UuidText) (now : Instant) : Tx BirthdayGrantResult := do
  let grantYear := getUtcLocalYear now
  let alreadyGranted ← Prog.call (.findGrant userId.value BIRTHDAY_BONUS_GRANT_TYPE grantYear)
  if alreadyGranted.isSome then return .already_granted
  let profile ← Prog.call (.findProfile userId.value)
  match profile with
  | none => return .profile_not_found
  | some profile =>
    if !profile.birthdayDate.any (isSameUtcMonthDay · now) then return .not_birthday
    let points := LOYALTY_RULES.BIRTHDAY_BONUS_POINTS
    let newTier := resolveNewTier profile.tier profile.yearVisits (profile.yearPoints + points)
    let updatedProfile ← Prog.call (.updateProfile userId.value (LoyaltyProfile.birthdayGrant newTier now))
    let transaction ← Prog.call (.createTransaction (birthdayRow userId updatedProfile.balance now))
    Prog.call (.createGrant userId.value BIRTHDAY_BONUS_GRANT_TYPE grantYear
      { points, pointsTransactionId := some transaction.id, grantedAt := now })
    announceTier userId profile.tier newTier now
    return .granted points updatedProfile.balance

/-- `processUserDateOfBirthSet`; `newDate` is `new Date(text)` outside the date pattern. -/
def processUserDateOfBirthSet (newDate : String → Option Instant) (userId : UuidText)
    (dateOfBirth : String) (now : Instant) : Tx BirthdayGrantResult :=
  match parseUtcLocalDate newDate dateOfBirth with
  | none =>
    .throw (.permanent .INVALID_DATE_OF_BIRTH PermanentMessageCode.INVALID_DATE_OF_BIRTH.text)
  | some birthdayDate =>
    if isFutureUtcLocalDate birthdayDate now then
      .throw (.permanent .INVALID_DATE_OF_BIRTH PermanentMessageCode.INVALID_DATE_OF_BIRTH.text)
    else do
      let _ ← lockLoyaltyProfile userId.value true
      let _ ← Prog.call (.updateProfile userId.value fun p => { p with birthdayDate := some birthdayDate })
      if !isSameUtcMonthDay birthdayDate now then return .saved
      grantBirthdayBonusInTransaction userId now

/-- `grantBirthdayBonusForUser`, the step of the scheduled job. -/
def grantBirthdayBonusForUser (userId : UuidText) (now : Instant) : Tx BirthdayGrantResult := do
  let locked ← lockLoyaltyProfile userId.value
  if !locked then return .profile_not_found
  grantBirthdayBonusInTransaction userId now

/-- What the setter answers to a failed transaction: a unique conflict counts as already granted. -/
def processUserDateOfBirthSetCatch : TxError → Except TxError BirthdayGrantResult
  | .prisma .P2002 => .ok .already_granted
  | e => .error e

/-- What the job's step answers to a failed transaction. -/
def grantBirthdayBonusForUserCatch : TxError → Except TxError BirthdayGrantResult
  | .prisma .P2002 => .ok .already_granted
  | e => .error e

/-! ### What a grant does -/

section effect
variable {α : Type} {db db' : DB} {userId : UuidText} {now : Instant} {res : BirthdayGrantResult}

/-- The tier after a grant. -/
def LoyaltyProfile.birthdayTier (p : LoyaltyProfile) : Tier :=
  resolveNewTier p.tier p.yearVisits (p.yearPoints + LOYALTY_RULES.BIRTHDAY_BONUS_POINTS)

/-- The database after a grant to profile `p`. -/
def DB.birthdayGranted (db : DB) (userId : UuidText) (p : LoyaltyProfile) (now : Instant) : DB :=
  let db₁ := db.apply (.updateProfile userId.value (p.birthdayGrant p.birthdayTier now))
  let t := db₁.numbered (birthdayRow userId (p.balance + LOYALTY_RULES.BIRTHDAY_BONUS_POINTS) now)
  ((db₁.apply (.transaction t)).apply
    (.grant userId.value BIRTHDAY_BONUS_GRANT_TYPE (getUtcLocalYear now)
      { points := LOYALTY_RULES.BIRTHDAY_BONUS_POINTS
        pointsTransactionId := some t.id
        grantedAt := now })).announced userId p.tier p.birthdayTier now

/-- A grant happens once a year, on the stored birthday; otherwise nothing changes. -/
inductive GrantOutcome (db : DB) (userId : UuidText) (now : Instant) :
    BirthdayGrantResult → DB → Prop
  | unchanged {res : BirthdayGrantResult} : GrantOutcome db userId now res db
  | granted {p : LoyaltyProfile}
      (hn : db.userBonusGrants (userId.value, BIRTHDAY_BONUS_GRANT_TYPE, getUtcLocalYear now) = none)
      (hp : db.profiles userId.value = some p)
      (hb : p.birthdayDate.any (isSameUtcMonthDay · now) = true) :
      GrantOutcome db userId now
        (.granted LOYALTY_RULES.BIRTHDAY_BONUS_POINTS (p.balance + LOYALTY_RULES.BIRTHDAY_BONUS_POINTS))
        (db.birthdayGranted userId p now)

theorem grantBirthdayBonusInTransaction_ok
    (h : db.run (grantBirthdayBonusInTransaction userId now) = .ok (res, db')) :
    GrantOutcome db userId now res db' := by
  unfold grantBirthdayBonusInTransaction at h
  simp only [Prog.call_bind, run_findGrant] at h
  split at h
  · cases h; exact .unchanged
  rename_i hgrant
  simp only [run_findProfile] at h
  cases hp : db.profiles userId.value with
  | none =>
    simp only [hp] at h
    cases h; exact .unchanged
  | some p =>
    simp only [hp] at h
    split at h
    · cases h; exact .unchanged
    rename_i hb
    obtain ⟨q, hq, -, h⟩ := updateProfile_ok h
    rw [hp, Option.some.injEq] at hq
    subst hq
    obtain ⟨t, ht, -, h⟩ := createTransaction_ok h
    obtain ⟨-, h⟩ := createGrant_ok h
    rw [run_announceTier] at h
    cases h
    subst ht
    exact .granted (by simpa using hgrant) hp (by simpa using hb)

/-- The database with the date of birth stored. -/
def DB.birthdaySet (db : DB) (userId : UuidText) (birthdayDate : Instant) : DB :=
  (db.ensureProfile userId.value).apply (.updateProfile userId.value
    { db.profileOrDefault userId.value with birthdayDate := some birthdayDate })

theorem processUserDateOfBirthSet_ok {newDate : String → Option Instant} {dateOfBirth : String}
    (h : db.run (processUserDateOfBirthSet newDate userId dateOfBirth now) = .ok (res, db')) :
    ∃ d, parseUtcLocalDate newDate dateOfBirth = some d ∧
      GrantOutcome (db.birthdaySet userId d) userId now res db' := by
  unfold processUserDateOfBirthSet at h
  split at h
  · cases h
  rename_i d hd
  refine ⟨d, hd, ?_⟩
  split at h
  · cases h
  simp only [run_lock_create, Prog.call_bind] at h
  obtain ⟨q, hq, -, h⟩ := updateProfile_ok h
  simp only [ensureProfile_profiles, if_true, Option.some.injEq] at hq
  subst hq
  split at h
  · cases h; exact .unchanged
  · exact grantBirthdayBonusInTransaction_ok h

/-- A grant leaves the date of birth alone. -/
theorem grant_birthdayDate (h : GrantOutcome db userId now res db') :
    (db'.profiles userId.value).bind (·.birthdayDate) =
      (db.profiles userId.value).bind (·.birthdayDate) := by
  cases h with
  | unchanged => rfl
  | granted _ hp _ => simp [DB.birthdayGranted, hp, LoyaltyProfile.birthdayGrant]

/-- The setter stores its date. -/
theorem setter_birthdayDate {newDate : String → Option Instant} {dateOfBirth : String}
    (h : db.run (processUserDateOfBirthSet newDate userId dateOfBirth now) = .ok (res, db')) :
    ∃ d, parseUtcLocalDate newDate dateOfBirth = some d ∧
      (db'.profiles userId.value).bind (·.birthdayDate) = some d := by
  obtain ⟨d, hd, hg⟩ := processUserDateOfBirthSet_ok h
  refine ⟨d, hd, ?_⟩
  rw [grant_birthdayDate hg]
  simp [DB.birthdaySet]

theorem grantBirthdayBonusForUser_ok
    (h : db.run (grantBirthdayBonusForUser userId now) = .ok (res, db')) :
    GrantOutcome db userId now res db' := by
  unfold grantBirthdayBonusForUser at h
  rw [run_lock] at h
  split at h
  · cases h; exact .unchanged
  · exact grantBirthdayBonusInTransaction_ok h

end effect

/-! ### What the setter answers to

    The grant looks for its key before it inserts it, so a setter that runs alone is not turned into
    a success by the catch clause for unique conflicts. -/

section conflicts
variable {α : Type} {db : DB} {userId : UuidText} {now : Instant}

/-- A unique key was taken. -/
def Conflict {β : Type} (r : Except TxError β) : Prop := r = .error (.prisma .P2002)

theorem updateProfile_conflict {u : Uuid} {data : LoyaltyProfile → LoyaltyProfile}
    {k : LoyaltyProfile → Tx α} (h : Conflict (db.run (.stmt (.updateProfile u data) k))) :
    ∃ p, db.profiles u = some p ∧
      Conflict ((db.apply (.updateProfile u (data p))).run (k (data p))) := by
  rcases pg.run_stmt_error_inv h with he | ⟨b, ws, he, h⟩ <;> simp only [pg, DB.eval] at he <;>
    split at he
  · cases he
  · (repeat' split at he) <;> cases he
  · cases he
  · rename_i p hp
    (repeat' split at he) <;> cases he
    exact ⟨p, hp, h⟩

theorem createTransaction_conflict {row : PointsTransaction} {k : PointsTransaction → Tx α}
    (h : Conflict (db.run (.stmt (.createTransaction row) k))) :
    ∃ t, Conflict ((db.apply (.transaction t)).run (k t)) := by
  rcases pg.run_stmt_error_inv h with he | ⟨b, ws, he, h⟩ <;> simp only [pg, DB.eval] at he <;>
    (repeat' split at he) <;> cases he
  exact ⟨_, h⟩

theorem createGrant_conflict {u : Uuid} {ty : String} {y : ℤ} {row : UserBonusGrant}
    {k : Unit → Tx α} (h : Conflict (db.run (.stmt (.createGrant u ty y row) k))) :
    (db.userBonusGrants (u, ty, y)).isSome = true ∨
      Conflict ((db.apply (.grant u ty y row)).run (k ())) := by
  rcases pg.run_stmt_error_inv h with he | ⟨b, ws, he, h⟩ <;> simp only [pg, DB.eval] at he <;>
    split at he <;> cases he
  · rename_i hn
    exact .inl hn
  · exact .inr h

theorem grantBirthdayBonusInTransaction_no_conflict :
    ¬Conflict (db.run (grantBirthdayBonusInTransaction userId now)) := by
  intro h
  unfold grantBirthdayBonusInTransaction at h
  simp only [Prog.call_bind, run_findGrant] at h
  split at h
  · cases h
  rename_i hgrant
  simp only [run_findProfile] at h
  cases hp : db.profiles userId.value with
  | none =>
    simp only [hp] at h
    cases h
  | some p =>
    simp only [hp] at h
    split at h
    · cases h
    obtain ⟨q, _, h⟩ := updateProfile_conflict h
    obtain ⟨t, h⟩ := createTransaction_conflict h
    rcases createGrant_conflict h with hg | h
    · simp [hgrant] at hg
    · rw [run_announceTier] at h
      cases h

theorem processUserDateOfBirthSet_no_conflict {newDate : String → Option Instant}
    {dateOfBirth : String} :
    ¬Conflict (db.run (processUserDateOfBirthSet newDate userId dateOfBirth now)) := by
  intro h
  unfold processUserDateOfBirthSet at h
  split at h
  · cases h
  split at h
  · cases h
  simp only [run_lock_create, Prog.call_bind] at h
  obtain ⟨q, _, h⟩ := updateProfile_conflict h
  split at h
  · cases h
  · exact grantBirthdayBonusInTransaction_no_conflict h

end conflicts

end CinemaLoyalty
