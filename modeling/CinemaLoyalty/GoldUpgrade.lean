import CinemaLoyalty.Transaction

/-! @svc GoldUpgrade | layer:model | source:src/loyalty/loyalty.service.ts (useGoldUpgrade, rollbackGoldUpgrade)

    The monthly Gold upgrade: a reservation for an order, mirrored on the profile, and its
    release. -/

namespace CinemaLoyalty
open Txn

/-- `UseGoldUpgradeResponse` and `RollbackGoldUpgradeResponse`. -/
structure GoldUpgradeResult where
  success : Bool
  errorMessage : String := ""
  deriving DecidableEq

/-- The transaction of `useGoldUpgrade`. -/
def useGoldUpgradeTx (userId orderId : UuidText) (now : Instant) : Tx GoldUpgradeResult := do
  let locked ← lockLoyaltyProfile userId.value
  if !locked then
    .throw (.rpc .NOT_FOUND (ERROR_MESSAGES.PROFILE_NOT_FOUND ++ " " ++ userId.text))
  else
    let profile ← Prog.call (.findProfile userId.value)
    match profile with
    | none => .throw (.prisma .P2025)
    | some profile =>
      let existing ← Prog.call (.findReservations userId.value (·.orderId = some orderId.value))
      match existing.head? with
      | some existing =>
        if existing.releasedAt.isSome then
          return { success := false, errorMessage := ERROR_MESSAGES.GOLD_RESERVATION_RELEASED }
        else return { success := true }
      | none =>
        if profile.tier ≠ .GOLD then
          return { success := false, errorMessage := ERROR_MESSAGES.NOT_GOLD_TIER }
        let currentMonth := getUtcMonthKey now
        let occupied ← Prog.call (.findReservations userId.value fun r =>
          r.month = currentMonth && r.releasedAt.isNone)
        if occupied ≠ [] ∨ profile.goldUpgradeUsedMonth = some currentMonth then
          return {
            success := false
            errorMessage :=
              if (occupied.head?.bind (·.orderId)).isSome then ERROR_MESSAGES.GOLD_QUOTA_EXCEEDED
              else ERROR_MESSAGES.GOLD_LEGACY_RECONCILIATION }
        Prog.call (.createReservation
          { userId := userId.value, month := currentMonth, orderId := some orderId.value })
        let _ ← Prog.call (.updateProfile userId.value fun p =>
          { p with goldUpgradeUsedMonth := some currentMonth })
        return { success := true }

/-- What `useGoldUpgrade` answers to a failed transaction. -/
def useGoldUpgradeCatch : TxError → Except TxError GoldUpgradeResult
  | .rpc code message => .error (.rpc code message)
  | _ => .error (.rpc .INTERNAL ERROR_MESSAGES.INTERNAL_GOLD_UPGRADE)

/-- The transaction of `rollbackGoldUpgrade`. -/
def rollbackGoldUpgradeTx (userId orderId : UuidText) (now : Instant) : Tx GoldUpgradeResult := do
  let locked ← lockLoyaltyProfile userId.value
  if !locked then
    return {
      success := false
      errorMessage := ERROR_MESSAGES.PROFILE_NOT_FOUND ++ " " ++ userId.text }
  let found ← Prog.call (.findReservations userId.value (·.orderId = some orderId.value))
  match found.head? with
  | none => return { success := false, errorMessage := ERROR_MESSAGES.GOLD_RESERVATION_NOT_FOUND }
  | some reservation =>
    if reservation.releasedAt.isSome then return { success := true }
    Prog.call (.releaseReservation userId.value orderId.value now)
    let _ ← Prog.call (.updateManyProfile userId.value
      (fun p => p.goldUpgradeUsedMonth = some reservation.month)
      fun p => { p with goldUpgradeUsedMonth := none })
    return { success := true }

/-- What `rollbackGoldUpgrade` answers to a failed transaction. -/
def rollbackGoldUpgradeCatch (_ : TxError) : Except TxError GoldUpgradeResult :=
  .ok { success := false, errorMessage := ERROR_MESSAGES.INTERNAL_GOLD_ROLLBACK }

/-! ### What the two commands do -/

section effect
variable {db db' : DB} {userId orderId : UuidText} {now : Instant} {res : GoldUpgradeResult}

/-- The unreleased reservation row of a use. -/
def reservationRow (userId orderId : UuidText) (now : Instant) : GoldUpgradeReservation where
  userId := userId.value
  month := getUtcMonthKey now
  orderId := some orderId.value

/-- The database after a use by profile `p`. -/
def DB.reserved (db : DB) (userId orderId : UuidText) (p : LoyaltyProfile) (now : Instant) : DB :=
  (db.apply (.reservation (reservationRow userId orderId now))).apply
    (.updateProfile userId.value { p with goldUpgradeUsedMonth := some (getUtcMonthKey now) })

/-- The reservations of a user and order. -/
def DB.ordered (db : DB) (userId orderId : Uuid) : List GoldUpgradeReservation :=
  (db.reservationsOf userId).filter (·.orderId = some orderId)

/-- The unreleased reservations of a user and month. -/
def DB.occupied (db : DB) (userId : Uuid) (month : MonthKey) : List GoldUpgradeReservation :=
  (db.reservationsOf userId).filter fun r => r.month = month && r.releasedAt.isNone

/-- The four ways `useGoldUpgrade` answers. Only the last changes the database. -/
inductive GoldUse (db : DB) (userId orderId : UuidText) (now : Instant) : GoldUpgradeResult → DB → Prop
  | replayed {r : GoldUpgradeReservation}
      (hr : (db.ordered userId.value orderId.value).head? = some r)
      (hopen : r.releasedAt = none) : GoldUse db userId orderId now { success := true } db
  | released {r : GoldUpgradeReservation}
      (hr : (db.ordered userId.value orderId.value).head? = some r)
      (hclosed : r.releasedAt.isSome = true) :
      GoldUse db userId orderId now
        { success := false, errorMessage := ERROR_MESSAGES.GOLD_RESERVATION_RELEASED } db
  | refused {p : LoyaltyProfile} {message : String} (hp : db.profiles userId.value = some p)
      (hnew : db.ordered userId.value orderId.value = [])
      (h : p.tier = .GOLD → db.occupied userId.value (getUtcMonthKey now) = [] →
        p.goldUpgradeUsedMonth = some (getUtcMonthKey now)) :
      GoldUse db userId orderId now { success := false, errorMessage := message } db
  | reserved {p : LoyaltyProfile} (hp : db.profiles userId.value = some p)
      (hnew : db.ordered userId.value orderId.value = []) (hgold : p.tier = .GOLD)
      (hfree : db.occupied userId.value (getUtcMonthKey now) = [])
      (hmirror : p.goldUpgradeUsedMonth ≠ some (getUtcMonthKey now)) :
      GoldUse db userId orderId now { success := true } (db.reserved userId orderId p now)

theorem useGoldUpgradeTx_use (h : db.run (useGoldUpgradeTx userId orderId now) = .ok (res, db')) :
    GoldUse db userId orderId now res db' := by
  unfold useGoldUpgradeTx at h
  rw [run_lock] at h
  split at h
  · cases h
  simp only [Prog.call_bind, run_findProfile] at h
  cases hp : db.profiles userId.value with
  | none =>
    simp only [hp] at h
    cases h
  | some p =>
    simp only [hp, run_findReservations] at h
    split at h
    · rename_i r hr
      split at h
      · rename_i hclosed
        cases h; exact .released hr hclosed
      · rename_i hopen
        cases h; exact .replayed hr (by simpa using hopen)
    rename_i hnew
    have hnew : db.ordered userId.value orderId.value = [] := List.head?_eq_none_iff.1 hnew
    split at h
    · rename_i hgold
      cases h; exact .refused hp hnew fun h => absurd h hgold
    rename_i hgold
    simp only [run_findReservations] at h
    split at h
    · rename_i htaken
      cases h
      exact .refused hp hnew fun _ hfree => htaken.resolve_left fun h => h hfree
    rename_i hfree
    obtain ⟨-, h⟩ := createReservation_ok h
    obtain ⟨q, hq, -, h⟩ := updateProfile_ok h
    simp only [profiles_other, Write.table, reduceCtorEq, not_false_eq_true, hp,
      Option.some.injEq] at hq
    subst hq
    cases h
    rw [not_or, not_not] at hfree
    exact .reserved hp hnew (not_not.1 hgold) hfree.1 hfree.2

/-- An order that was released is refused. -/
theorem run_useGoldUpgradeTx_released {p : LoyaltyProfile} {r : GoldUpgradeReservation}
    (hp : db.profiles userId.value = some p)
    (hr : (db.ordered userId.value orderId.value).head? = some r)
    (hclosed : r.releasedAt.isSome = true) : db.run (useGoldUpgradeTx userId orderId now) =
      .ok ({ success := false, errorMessage := ERROR_MESSAGES.GOLD_RESERVATION_RELEASED }, db) := by
  unfold DB.ordered at hr
  unfold useGoldUpgradeTx
  rw [run_lock, hp]
  simp only [Option.isSome_some, Bool.not_true, Bool.false_eq_true, if_false, Prog.call_bind,
    run_findProfile, hp, run_findReservations, hr, hclosed, if_true]
  rfl

/-- A new order of a user without reservations for the month conflicts with none. -/
theorem reservationRow_free (hnew : db.ordered userId.value orderId.value = [])
    (hfree : db.occupied userId.value (getUtcMonthKey now) = []) :
    (db.reservationsOf userId.value).any (reservationRow userId orderId now).conflicts = false := by
  rw [List.any_eq_false]
  intro r hr hconflict
  unfold DB.ordered at hnew
  unfold DB.occupied at hfree
  have hother := List.filter_eq_nil_iff.1 hnew r hr
  have hopen := List.filter_eq_nil_iff.1 hfree r hr
  simp only [GoldUpgradeReservation.conflicts, reservationRow, Bool.and_eq_true, Bool.or_eq_true,
    Option.isSome_some, Option.isNone_none, true_and, and_true] at hconflict
  simp only [Bool.and_eq_true] at hother hopen
  rcases hconflict.2 with ho | ⟨hm, hr⟩
  · exact hother (by simpa using (of_decide_eq_true ho).symm)
  · exact hopen ⟨by simpa using (of_decide_eq_true hm).symm, hr⟩

/-- A new order of a GOLD user whose month is free reserves it. -/
theorem run_useGoldUpgradeTx_reserved {p : LoyaltyProfile} (hp : db.profiles userId.value = some p)
    (hfits : p.inRange = true) (hnew : db.ordered userId.value orderId.value = [])
    (hgold : p.tier = .GOLD) (hfree : db.occupied userId.value (getUtcMonthKey now) = [])
    (hmirror : p.goldUpgradeUsedMonth ≠ some (getUtcMonthKey now)) :
    db.run (useGoldUpgradeTx userId orderId now) =
      .ok ({ success := true }, db.reserved userId orderId p now) := by
  have hconflict := reservationRow_free hnew hfree
  unfold DB.ordered at hnew
  unfold DB.occupied at hfree
  unfold useGoldUpgradeTx
  rw [run_lock, hp]
  simp only [Option.isSome_some, Bool.not_true, Bool.false_eq_true, if_false, Prog.call_bind,
    run_findProfile, hp, run_findReservations, hnew, List.head?_nil, hgold, ne_eq, not_true_eq_false,
    hfree, hmirror, or_self]
  exact (run_createReservation hconflict).trans (run_updateProfile (by simpa using hp) hfits rfl)

theorem useGoldUpgradeTx_ok (h : db.run (useGoldUpgradeTx userId orderId now) = .ok (res, db')) :
    db' = db ∨ ∃ p, db.profiles userId.value = some p ∧ p.tier = .GOLD ∧
      p.goldUpgradeUsedMonth ≠ some (getUtcMonthKey now) ∧
      db' = (db.apply (.reservation
          { userId := userId.value
            month := getUtcMonthKey now
            orderId := some orderId.value })).apply
        (.updateProfile userId.value { p with goldUpgradeUsedMonth := some (getUtcMonthKey now) }) := by
  cases useGoldUpgradeTx_use h with
  | replayed _ _ => exact .inl rfl
  | released _ _ => exact .inl rfl
  | refused _ _ _ => exact .inl rfl
  | reserved hp _ hgold _ hmirror => exact .inr ⟨_, hp, hgold, hmirror, rfl⟩

/-- The database after the release of reservation `r` of profile `p`: the mirror is cleared if it
    names the month of `r`. -/
def DB.rolledBack (db : DB) (userId orderId : UuidText) (p : LoyaltyProfile)
    (r : GoldUpgradeReservation) (now : Instant) : DB :=
  let db₁ := db.apply (.release userId.value orderId.value now)
  if p.goldUpgradeUsedMonth = some r.month then
    db₁.apply (.updateProfile userId.value { p with goldUpgradeUsedMonth := none })
  else db₁

/-- The ways `rollbackGoldUpgrade` answers. Only the last changes the database. -/
inductive GoldRollback (db : DB) (userId orderId : UuidText) (now : Instant) :
    GoldUpgradeResult → DB → Prop
  | refused {message : String} (h : db.profiles userId.value = none ∨
      db.ordered userId.value orderId.value = []) :
      GoldRollback db userId orderId now { success := false, errorMessage := message } db
  | replayed {r : GoldUpgradeReservation}
      (hr : (db.ordered userId.value orderId.value).head? = some r)
      (hclosed : r.releasedAt.isSome = true) :
      GoldRollback db userId orderId now { success := true } db
  | released {p : LoyaltyProfile} {r : GoldUpgradeReservation}
      (hp : db.profiles userId.value = some p)
      (hr : (db.ordered userId.value orderId.value).head? = some r) (hopen : r.releasedAt = none) :
      GoldRollback db userId orderId now { success := true } (db.rolledBack userId orderId p r now)

theorem rollbackGoldUpgradeTx_rollback
    (h : db.run (rollbackGoldUpgradeTx userId orderId now) = .ok (res, db')) :
    GoldRollback db userId orderId now res db' := by
  unfold rollbackGoldUpgradeTx at h
  rw [run_lock] at h
  split at h
  · rename_i hmissing
    cases h; exact .refused (.inl (by simpa using hmissing))
  rename_i hlocked
  obtain ⟨p, hp⟩ : ∃ p, db.profiles userId.value = some p :=
    Option.ne_none_iff_exists'.1 (by simpa using hlocked)
  simp only [Prog.call_bind, run_findReservations] at h
  split at h
  · rename_i hnone
    cases h; exact .refused (.inr (List.head?_eq_none_iff.1 hnone))
  rename_i r hr
  split at h
  · cases h; exact .replayed hr ‹_›
  rename_i hopen
  have hout : GoldRollback db userId orderId now _ _ := .released hp hr (by simpa using hopen)
  replace h := releaseReservation_ok h
  rcases updateManyProfile_ok h with ⟨hkeep, h⟩ | ⟨q, hq, hclear, -, h⟩
  · cases h
    have hkeep := hkeep p (by simpa using hp)
    rw [decide_eq_false_iff_not] at hkeep
    unfold DB.rolledBack at hout
    rwa [if_neg hkeep] at hout
  · cases h
    simp only [profiles_other, Write.table, reduceCtorEq, not_false_eq_true, hp,
      Option.some.injEq] at hq
    subst hq
    rw [decide_eq_true_eq] at hclear
    unfold DB.rolledBack at hout
    rwa [if_pos hclear] at hout

theorem rollbackGoldUpgradeTx_ok
    (h : db.run (rollbackGoldUpgradeTx userId orderId now) = .ok (res, db')) :
    db' = db ∨ db' = db.apply (.release userId.value orderId.value now) ∨
      ∃ p, db.profiles userId.value = some p ∧
        db' = (db.apply (.release userId.value orderId.value now)).apply
          (.updateProfile userId.value { p with goldUpgradeUsedMonth := none }) := by
  cases rollbackGoldUpgradeTx_rollback h with
  | refused _ => exact .inl rfl
  | replayed _ _ => exact .inl rfl
  | released hp _ _ =>
    unfold DB.rolledBack
    simp only
    split
    · exact .inr (.inr ⟨_, hp, rfl⟩)
    · exact .inr (.inl rfl)

end effect

end CinemaLoyalty
