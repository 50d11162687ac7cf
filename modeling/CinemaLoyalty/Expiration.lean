import CinemaLoyalty.Transaction

/-! @svc Expiration | layer:model | source:src/loyalty/loyalty-expiration.service.ts

    The per-profile transactions of the batch jobs: expiring a balance, resetting the annual
    counters, and clearing the Gold upgrade mirror of past months. -/

namespace CinemaLoyalty
open Txn

/-- The ledger row of an expiry. -/
def expireRow (userId : Uuid) (balance : ℤ) (now : Instant) : PointsTransaction where
  userId
  type := .EXPIRE
  points := -balance
  balanceAfter := 0
  description := TRANSACTION_DESCRIPTIONS.POINTS_EXPIRED
  createdAt := now

/-- The step of `expirePoints`; `now` is read when the job starts. -/
def expirePointsStep (userId : Uuid) (now : Instant) : Tx Bool := do
  let locked ← lockLoyaltyProfile userId
  if !locked then return false
  let profile ← Prog.call (.findProfile userId)
  match profile with
  | none => return false
  | some profile =>
    if profile.balance ≤ 0 || !profile.balanceExpiresAt.any (fun t => decide (t ≤ now)) then
      return false
    let _ ← Prog.call (.updateProfile userId fun p => { p with balance := 0 })
    let _ ← Prog.call (.createTransaction (expireRow userId profile.balance now))
    return true

/-- The step of `resetAnnualStats`. -/
def resetAnnualStatsStep (userId : Uuid) : Tx Unit := do
  let locked ← lockLoyaltyProfile userId
  if !locked then return ()
  let _ ← Prog.call (.updateManyProfile userId (fun _ => true)
    fun p => { p with yearPoints := 0, yearVisits := 0 })
  return ()

/-- The step of `goldReset`, with the month of its own clock reading. -/
def goldResetStep (userId : Uuid) (now : Instant) : Tx ℕ := do
  let locked ← lockLoyaltyProfile userId
  if !locked then return 0
  Prog.call (.updateManyProfile userId
    (fun p => p.goldUpgradeUsedMonth.any (·.before (getUtcMonthKey now)))
    fun p => { p with goldUpgradeUsedMonth := none })

/-! ### What the steps do -/

section effect
variable {db db' : DB} {userId : Uuid} {now : Instant}

theorem expirePointsStep_ok {res : Bool} (h : db.run (expirePointsStep userId now) = .ok (res, db')) :
    db' = db ∨ ∃ p, db.profiles userId = some p ∧ 0 < p.balance ∧
      p.balanceExpiresAt.any (fun t => decide (t ≤ now)) = true ∧
      db' = (db.apply (.updateProfile userId { p with balance := 0 })).post
        (expireRow userId p.balance now) := by
  unfold expirePointsStep at h
  rw [run_lock] at h
  split at h
  · cases h; exact .inl rfl
  simp only [Prog.call_bind, run_findProfile] at h
  cases hp : db.profiles userId with
  | none =>
    simp only [hp] at h
    cases h; exact .inl rfl
  | some p =>
    simp only [hp] at h
    split at h
    · cases h; exact .inl rfl
    rename_i hdue
    obtain ⟨q, hq, -, h⟩ := updateProfile_ok h
    rw [hp, Option.some.injEq] at hq
    subst hq
    obtain ⟨t, rfl, -, h⟩ := createTransaction_ok h
    cases h
    simp only [Bool.or_eq_true, not_or, decide_eq_true_eq, not_le] at hdue
    exact .inr ⟨p, rfl, hdue.1, by simpa using hdue.2, rfl⟩

theorem resetAnnualStatsStep_ok {res : Unit}
    (h : db.run (resetAnnualStatsStep userId) = .ok (res, db')) :
    db' = db ∨ ∃ p, db.profiles userId = some p ∧
      db' = db.apply (.updateProfile userId { p with yearPoints := 0, yearVisits := 0 }) := by
  unfold resetAnnualStatsStep at h
  rw [run_lock] at h
  split at h
  · cases h; exact .inl rfl
  rcases updateManyProfile_ok h with ⟨-, h⟩ | ⟨p, hp, -, -, h⟩
  · cases h; exact .inl rfl
  · cases h; exact .inr ⟨p, hp, rfl⟩

theorem goldResetStep_ok {res : ℕ} (h : db.run (goldResetStep userId now) = .ok (res, db')) :
    db' = db ∨ ∃ p, db.profiles userId = some p ∧
      p.goldUpgradeUsedMonth.any (·.before (getUtcMonthKey now)) = true ∧
      db' = db.apply (.updateProfile userId { p with goldUpgradeUsedMonth := none }) := by
  unfold goldResetStep at h
  rw [run_lock] at h
  split at h
  · cases h; exact .inl rfl
  rcases updateManyProfile_ok h with ⟨-, h⟩ | ⟨p, hp, hm, -, h⟩
  · cases h; exact .inl rfl
  · cases h; exact .inr ⟨p, hp, hm, rfl⟩

/-! ### When they take effect -/

/-- A balance that has expired is expired. -/
theorem run_expirePointsStep {p : LoyaltyProfile} (hp : db.profiles userId = some p)
    (hr : p.inRange = true) (hpos : 0 < p.balance)
    (hdue : p.balanceExpiresAt.any (fun t => decide (t ≤ now)) = true) :
    db.run (expirePointsStep userId now) = .ok (true,
      (db.apply (.updateProfile userId { p with balance := 0 })).post
        (expireRow userId p.balance now)) := by
  simp only [LoyaltyProfile.inRange, Bool.and_eq_true] at hr
  obtain ⟨⟨⟨hb, hl⟩, hy⟩, hv⟩ := hr
  have hzero : ({ p with balance := 0 } : LoyaltyProfile).inRange = true := by
    simp only [LoyaltyProfile.inRange, hl, hy, hv]
    decide
  have hpoints : isInt32 (-p.balance) = true := by
    simp only [isInt32, Bool.and_eq_true, decide_eq_true_eq] at hb ⊢
    omega
  have hrow : (expireRow userId p.balance now).inRange = true := by
    unfold PointsTransaction.inRange expireRow
    simp only [hpoints]
    decide
  unfold expirePointsStep
  rw [run_lock]
  simp only [hp, Option.isSome_some, Bool.not_true, Bool.false_eq_true, if_false, Prog.call_bind,
    run_findProfile, hdue, Bool.or_false, decide_eq_true_eq, not_le.2 hpos]
  have htext : isTextColumn TRANSACTION_DESCRIPTIONS.POINTS_EXPIRED = true := by decide
  rw [run_updateProfile hp hzero rfl, run_createTransaction hrow htext]
  rfl

theorem run_resetAnnualStatsStep {p : LoyaltyProfile} (hp : db.profiles userId = some p)
    (hr : p.inRange = true) : db.run (resetAnnualStatsStep userId) = .ok ((),
      db.apply (.updateProfile userId { p with yearPoints := 0, yearVisits := 0 })) := by
  simp only [LoyaltyProfile.inRange, Bool.and_eq_true] at hr
  have hzero : ({ p with yearPoints := 0, yearVisits := 0 } : LoyaltyProfile).inRange = true := by
    simp only [LoyaltyProfile.inRange, hr.1.1.1, hr.1.1.2]
    decide
  unfold resetAnnualStatsStep
  rw [run_lock]
  simp only [hp, Option.isSome_some, Bool.not_true, Bool.false_eq_true, if_false, Prog.call_bind]
  rw [run_updateManyProfile hp rfl hzero]
  rfl

theorem run_goldResetStep {p : LoyaltyProfile} (hp : db.profiles userId = some p)
    (hr : p.inRange = true)
    (hdue : p.goldUpgradeUsedMonth.any (·.before (getUtcMonthKey now)) = true) :
    db.run (goldResetStep userId now) = .ok (1,
      db.apply (.updateProfile userId { p with goldUpgradeUsedMonth := none })) := by
  unfold goldResetStep
  rw [run_lock]
  simp only [hp, Option.isSome_some, Bool.not_true, Bool.false_eq_true, if_false]
  exact run_updateManyProfile (k := .pure) hp hdue hr

end effect

end CinemaLoyalty
