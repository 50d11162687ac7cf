import CinemaLoyalty.Purchase

/-! @svc Admin | layer:model | source:src/loyalty/admin-loyalty.service.ts

    Manual adjustments: adding or deducting points, and granting VIP (GOLD) status. -/

namespace CinemaLoyalty
open Txn

/-- The answer of `modifyPointsGrpc`. -/
structure ModifyPointsResult where
  userId : Uuid
  tier : Tier
  balance : ℤ
  deriving DecidableEq

/-- The profile update of an adjustment. -/
def LoyaltyProfile.adjust (points : ℤ) (newTier : Tier) (now : Instant) (p : LoyaltyProfile) :
    LoyaltyProfile :=
  let increment := if points > 0 then points else 0
  let p := { p with
    balance := p.balance + points
    lifetimePoints := p.lifetimePoints + increment
    yearPoints := p.yearPoints + increment
    tier := newTier
    lastActivityAt := some now }
  if points > 0 then { p with balanceExpiresAt := some (addYears now 1) } else p

/-- The ledger row of an adjustment. -/
def adjustmentRow (userId : UuidText) (adminId : String) (points : ℤ) (reason : String)
    (newBalance : ℤ) (now : Instant) : PointsTransaction where
  userId := userId.value
  type := if points > 0 then .ADMIN_ADDITION else .ADMIN_DEDUCTION
  points
  balanceAfter := newBalance
  description := "[Admin: " ++ adminId ++ "] Reason: " ++ reason
  createdAt := now

/-- The transaction of `modifyPointsGrpc`. -/
def modifyPointsTx (userId : UuidText) (adminId : String) (points : ℤ) (reason : String)
    (now : Instant) : Tx ModifyPointsResult := do
  let _ ← lockLoyaltyProfile userId.value true
  let profile ← Prog.call (.findProfile userId.value)
  match profile with
  | none => .throw (.prisma .P2025)
  | some profile =>
    if profile.balance + points < 0 then
      .throw (.rpc .INVALID_ARGUMENT "Insufficient points for deduction.")
    else
      let yearIncrement := if points > 0 then points else 0
      let newTier := resolveNewTier profile.tier profile.yearVisits (profile.yearPoints + yearIncrement)
      let updatedProfile ← Prog.call (.updateProfile userId.value
        (LoyaltyProfile.adjust points newTier now))
      let _ ← Prog.call (.createTransaction
        (adjustmentRow userId adminId points reason updatedProfile.balance now))
      announceTier userId profile.tier newTier now
      return { userId := userId.value, tier := updatedProfile.tier, balance := updatedProfile.balance }

/-- `modifyPointsGrpc`. -/
def modifyPointsGrpc (userId : UuidText) (adminId : String) (points : ℤ) (reason : String)
    (now : Instant) : Tx ModifyPointsResult :=
  if points = 0 then .throw (.rpc .INVALID_ARGUMENT "Points modification value must be non-zero.")
  else modifyPointsTx userId adminId points reason now

/-- What `modifyPointsGrpc` answers to a failed transaction. -/
def modifyPointsCatch : TxError → Except TxError ModifyPointsResult
  | .rpc code message => .error (.rpc code message)
  | _ => .error (.rpc .INTERNAL "An error occurred while modifying points.")

/-- The answer of `grantVipStatusGrpc`. -/
structure GrantVipStatusResult where
  userId : Uuid
  newTier : Tier
  deriving DecidableEq

/-- The ledger row of a VIP grant: no points. -/
def vipRow (userId : UuidText) (adminId : String) (reason : String) (balance : ℤ) (now : Instant) :
    PointsTransaction where
  userId := userId.value
  type := .ADMIN_ADDITION
  points := 0
  balanceAfter := balance
  description := "[Admin: " ++ adminId ++ "] VIP Status Granted. Reason: " ++ reason
  createdAt := now

/-- `grantVipStatusGrpc`. -/
def grantVipStatusGrpc (userId : UuidText) (adminId : String) (reason : String) (now : Instant) :
    Tx GrantVipStatusResult := do
  let _ ← lockLoyaltyProfile userId.value true
  let profile ← Prog.call (.findProfile userId.value)
  match profile with
  | none => .throw (.prisma .P2025)
  | some profile =>
    if profile.tier = .GOLD then
      .throw (.rpc .ALREADY_EXISTS "User is already a VIP (GOLD tier).")
    else
      let updated ← Prog.call (.updateProfile userId.value fun p => { p with tier := .GOLD })
      let _ ← Prog.call (.createTransaction (vipRow userId adminId reason updated.balance now))
      Prog.call (.createOutbox (tierUpgraded userId profile.tier .GOLD now))
      return { userId := userId.value, newTier := updated.tier }

/-! ### What an adjustment does -/

section effect
variable {db db' : DB} {userId : UuidText} {adminId reason : String} {points : ℤ} {now : Instant}

/-- The tier after an adjustment. -/
def LoyaltyProfile.adjustTier (p : LoyaltyProfile) (points : ℤ) : Tier :=
  resolveNewTier p.tier p.yearVisits (p.yearPoints + if points > 0 then points else 0)

/-- The database after an adjustment. -/
def DB.adjusted (db : DB) (userId : UuidText) (adminId : String) (points : ℤ) (reason : String)
    (now : Instant) : DB :=
  let p := db.profileOrDefault userId.value
  (((db.ensureProfile userId.value).apply
    (.updateProfile userId.value (p.adjust points (p.adjustTier points) now))).post
    (adjustmentRow userId adminId points reason (p.balance + points) now)).announced
    userId p.tier (p.adjustTier points) now

theorem adjust_balance (points : ℤ) (t : Tier) (p : LoyaltyProfile) :
    (p.adjust points t now).balance = p.balance + points := by
  unfold LoyaltyProfile.adjust
  simp only
  split <;> rfl

theorem adjust_tier (points : ℤ) (t : Tier) (p : LoyaltyProfile) :
    (p.adjust points t now).tier = t := by
  unfold LoyaltyProfile.adjust
  simp only
  split <;> rfl

theorem modifyPointsGrpc_ok {res : ModifyPointsResult}
    (h : db.run (modifyPointsGrpc userId adminId points reason now) = .ok (res, db')) :
    points ≠ 0 ∧ 0 ≤ (db.profileOrDefault userId.value).balance + points ∧
      db' = db.adjusted userId adminId points reason now := by
  unfold modifyPointsGrpc at h
  split at h
  · cases h
  rename_i hzero
  unfold modifyPointsTx at h
  simp only [run_lock_create, Prog.call_bind, run_findProfile, ensureProfile_profiles, if_true] at h
  split at h
  · cases h
  rename_i hneg
  obtain ⟨q, hq, -, h⟩ := updateProfile_ok h
  simp only [ensureProfile_profiles, if_true, Option.some.injEq] at hq
  subst hq
  obtain ⟨t, rfl, -, h⟩ := createTransaction_ok h
  rw [run_announceTier] at h
  cases h
  refine ⟨hzero, by omega, ?_⟩
  rw [adjust_balance]
  rfl

/-- The database after a VIP grant. -/
def DB.vipGranted (db : DB) (userId : UuidText) (adminId reason : String) (now : Instant) : DB :=
  let p := db.profileOrDefault userId.value
  (((db.ensureProfile userId.value).apply (.updateProfile userId.value { p with tier := .GOLD })).post
    (vipRow userId adminId reason p.balance now)).announced userId p.tier .GOLD now

theorem grantVipStatusGrpc_ok {res : GrantVipStatusResult}
    (h : db.run (grantVipStatusGrpc userId adminId reason now) = .ok (res, db')) :
    (db.profileOrDefault userId.value).tier ≠ .GOLD ∧
      db' = db.vipGranted userId adminId reason now := by
  unfold grantVipStatusGrpc at h
  simp only [run_lock_create, Prog.call_bind, run_findProfile, ensureProfile_profiles, if_true] at h
  split at h
  · cases h
  rename_i hgold
  obtain ⟨q, hq, -, h⟩ := updateProfile_ok h
  simp only [ensureProfile_profiles, if_true, Option.some.injEq] at hq
  subst hq
  obtain ⟨t, rfl, -, h⟩ := createTransaction_ok h
  cases h
  refine ⟨hgold, ?_⟩
  unfold DB.vipGranted DB.announced
  rw [if_pos (Ne.symm hgold)]
  rfl

end effect

end CinemaLoyalty
