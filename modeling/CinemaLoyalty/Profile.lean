import CinemaLoyalty.Calculator
import CinemaLoyalty.Transaction

/-! @svc Profile | layer:model | source:src/loyalty/loyalty.service.ts (getBalance, getFullProfile, isGoldUpgradeAvailable), src/loyalty/admin-loyalty.service.ts (getUserBalanceGrpc), src/utils/loyalty.mapper.ts

    The profile as clients see it. Reading it creates it. -/

namespace CinemaLoyalty

/-- `GrpcTier`. -/
inductive GrpcTier
  | TIER_UNSPECIFIED | TIER_BRONZE | TIER_SILVER | TIER_GOLD
  deriving DecidableEq

/-- `LoyaltyMapper.toGrpcTier`. -/
def toGrpcTier : Tier → GrpcTier
  | .BRONZE => .TIER_BRONZE
  | .SILVER => .TIER_SILVER
  | .GOLD => .TIER_GOLD

/-- `GetBalanceResponse`. -/
structure GetBalanceResponse where
  balance : ℤ
  lifetimePoints : ℤ
  yearPoints : ℤ
  tier : GrpcTier
  deriving DecidableEq

/-- `getBalance`: the response and the database after the upsert. -/
def getBalance (userId : UuidText) (db : DB) : GetBalanceResponse × DB :=
  let profile := db.profileOrDefault userId.value
  ({ balance := profile.balance
     lifetimePoints := profile.lifetimePoints
     yearPoints := profile.yearPoints
     tier := toGrpcTier profile.tier },
    db.ensureProfile userId.value)

/-- The balance as administrators see it. -/
structure AdminUserBalance where
  balance : ℤ
  lifetimePoints : ℤ
  tier : GrpcTier
  deriving DecidableEq

/-- `getUserBalanceGrpc`: the response and the database after the upsert. -/
def getUserBalanceGrpc (userId : UuidText) (db : DB) : AdminUserBalance × DB :=
  let profile := db.profileOrDefault userId.value
  ({ balance := profile.balance
     lifetimePoints := profile.lifetimePoints
     tier := toGrpcTier profile.tier },
    db.ensureProfile userId.value)

/-- `GetFullProfileResponse`. -/
structure GetFullProfileResponse where
  userId : String
  tier : GrpcTier
  balance : ℤ
  lifetimePoints : ℤ
  yearPoints : ℤ
  yearVisits : ℤ
  tierExpiresAt : String
  balanceExpiresAt : String
  isBirthdayWeek : Bool
  goldUpgradeAvailable : Bool
  deriving DecidableEq

/-- `isGoldUpgradeAvailable`. -/
def isGoldUpgradeAvailable (tier : Tier) (goldUpgradeUsedMonth : Option MonthKey) (now : Instant) : Bool :=
  if tier ≠ .GOLD then false else decide (goldUpgradeUsedMonth ≠ some (getUtcMonthKey now))

/-- `getFullProfile`: the response and the database after the upsert. -/
def getFullProfile (userId : UuidText) (now : Instant) (db : DB) : GetFullProfileResponse × DB :=
  let profile := db.profileOrDefault userId.value
  ({ userId := userId.value.text
     tier := toGrpcTier profile.tier
     balance := profile.balance
     lifetimePoints := profile.lifetimePoints
     yearPoints := profile.yearPoints
     yearVisits := profile.yearVisits
     tierExpiresAt := (profile.tierExpiresAt.map toISOString).getD ""
     balanceExpiresAt := (profile.balanceExpiresAt.map toISOString).getD ""
     isBirthdayWeek := isBirthdayWeek profile.birthdayDate now
     goldUpgradeAvailable := isGoldUpgradeAvailable profile.tier profile.goldUpgradeUsedMonth now },
    db.ensureProfile userId.value)

theorem isGoldUpgradeAvailable_iff {tier : Tier} {month : Option MonthKey} {now : Instant} :
    isGoldUpgradeAvailable tier month now = true ↔ tier = .GOLD ∧ month ≠ some (getUtcMonthKey now) := by
  unfold isGoldUpgradeAvailable
  split
  · simp_all
  · simp_all

end CinemaLoyalty
