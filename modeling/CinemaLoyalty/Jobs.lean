import CinemaLoyalty.Expiration
import CinemaLoyalty.Lib.Keyset
import Mathlib.Data.String.Basic

/-! @svc Jobs | layer:model | source:src/loyalty/loyalty-expiration.service.ts, src/loyalty/constants/loyalty.constants.ts

    The batch jobs over the profile table: every one pages through the rows of its filter by
    descending id, below the last id seen. A transaction that fails ends the job with what was done
    before it. `batchSize` is 500 in the program. The progress callback and the log are left out. -/

namespace CinemaLoyalty
open Txn

/-- The key columns of a profile row. -/
structure ProfileKey where
  id : Uuid
  userId : Uuid
  deriving DecidableEq

/-- The order of `uuid` columns: of canonical texts. -/
instance : LinearOrder Uuid := LinearOrder.lift' Uuid.text fun
  | ⟨_, _⟩, ⟨_, _⟩, rfl => rfl

/-- `NOTIFY_DAYS_BEFORE`. -/
def NOTIFY_DAYS_BEFORE : ℤ := 30

/-- The payload of a `loyalty.points_expiring` message. -/
structure PointsExpiring where
  userId : Uuid
  points : ℤ
  expiresAt : Option String
  deriving DecidableEq

/-- What a job works on: the database and the messages emitted. -/
structure JobState where
  db : DB
  emitted : List PointsExpiring

/-- What ends a job early: the error, and the state it leaves. -/
abbrev JobError := TxError × JobState

/-- The rows of a filter. -/
def JobState.selects (cond : LoyaltyProfile → Bool) (s : JobState) (row : ProfileKey) : Bool :=
  (s.db.profiles row.userId).any cond

/-- One transaction for each row of a batch. -/
def eachRow {α : Type} (step : ProfileKey → Tx α) (s : JobState) (batch : List ProfileKey) :
    Except JobError JobState :=
  batch.foldlM (fun s row =>
    match s.db.transaction (step row) with
    | (.error e, db) => .error (e, { s with db })
    | (.ok _, db) => .ok { s with db }) s

/-! ### Filters -/

/-- The filter of `expirePoints`. -/
def isExpired (now : Instant) (p : LoyaltyProfile) : Bool :=
  decide (0 < p.balance) && p.balanceExpiresAt.any fun t => decide (t ≤ now)

/-- The filter of `resetAnnualStats`. -/
def hasAnnualStats (p : LoyaltyProfile) : Bool :=
  decide (0 < p.yearPoints) || decide (0 < p.yearVisits)

/-- The filter of `goldReset`. -/
def usedBefore (cutoffMonth : MonthKey) (p : LoyaltyProfile) : Bool :=
  p.goldUpgradeUsedMonth.any (·.before cutoffMonth)

/-- The filter of `notifyExpiringUsers`: a balance that expires within thirty days, and no
    notification in the last thirty. -/
def isExpiring (now : Instant) (p : LoyaltyProfile) : Bool :=
  let thirtyDaysFromNow := now + NOTIFY_DAYS_BEFORE * MS_IN_A_DAY
  let notifiedBefore := now - NOTIFY_DAYS_BEFORE * MS_IN_A_DAY
  decide (0 < p.balance) &&
    (p.balanceExpiresAt.any fun t => decide (now ≤ t) && decide (t ≤ thirtyDaysFromNow)) &&
    p.lastExpiryNotificationAt.all fun t => decide (t < notifiedBefore)

/-! ### Jobs -/

/-- The message about a selected profile. -/
def pointsExpiring (userId : Uuid) (p : LoyaltyProfile) : PointsExpiring where
  userId
  points := p.balance
  expiresAt := p.balanceExpiresAt.map toISOString

/-- `updateMany` on the rows of the ids. -/
def DB.updateMany (db : DB) (rows : List ProfileKey) (ids : List Uuid)
    (data : LoyaltyProfile → LoyaltyProfile) : DB :=
  { db with
    profiles := fun userId =>
      if rows.any fun row => decide (row.userId = userId) && decide (row.id ∈ ids) then
        (db.profiles userId).map data
      else db.profiles userId }

/-- A batch of `notifyExpiringUsers`: all rows are marked, then every message is emitted as the
    batch was selected. -/
def notifyBatch (rows : List ProfileKey) (now : Instant) (s : JobState) (batch : List ProfileKey) :
    Except JobError JobState :=
  .ok
    { db := s.db.updateMany rows (batch.map (·.id)) fun p =>
        { p with lastExpiryNotificationAt := some now }
      emitted := s.emitted ++ batch.flatMap fun row =>
        (s.db.profiles row.userId).toList.map (pointsExpiring row.userId) }

/-- What a job answers: `none` when the fuel is used up, else how it ended and the rows it worked
    on. -/
abbrev BatchResult := Option (Except JobError (JobState × List ProfileKey))

section jobs
variable (rows : List ProfileKey) (batchSize : ℕ) (now : Instant) (fuel : ℕ) (s : JobState)

/-- `notifyExpiringUsers`. -/
def notifyExpiringUsers : BatchResult :=
  Keyset.job ProfileKey.id rows batchSize (JobState.selects (isExpiring now)) (notifyBatch rows now)
    fuel s none

/-- `expirePoints`. -/
def expirePoints : BatchResult :=
  Keyset.job ProfileKey.id rows batchSize (JobState.selects (isExpired now))
    (eachRow fun candidate => expirePointsStep candidate.userId now) fuel s none

/-- `resetAnnualStats`. -/
def resetAnnualStats : BatchResult :=
  Keyset.job ProfileKey.id rows batchSize (JobState.selects hasAnnualStats)
    (eachRow fun profile => resetAnnualStatsStep profile.userId) fuel s none

/-- `goldReset`; every transaction reads the clock again. -/
def goldReset (clock : ProfileKey → Instant) : BatchResult :=
  let cutoffMonth := getUtcMonthKey now
  Keyset.job ProfileKey.id rows batchSize (JobState.selects (usedBefore cutoffMonth))
    (eachRow fun profile => goldResetStep profile.userId (clock profile)) fuel s none

end jobs

end CinemaLoyalty
