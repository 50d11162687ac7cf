import CinemaLoyalty.Dates
import CinemaLoyalty.Effects
import CinemaLoyalty.Lib.Transition

/-! @svc CreditExpiry | layer:property | source:src/loyalty/loyalty-calculator.service.ts (addYears), src/loyalty/loyalty.service.ts (processTicketPurchase, grantBirthdayBonusInTransaction), src/loyalty/admin-loyalty.service.ts (modifyPointsGrpc), src/loyalty/loyalty-expiration.service.ts (expirePoints)

    A credit sets the expiry of the balance to a year after the clock reading it carries. The
    expiry moves back when that reading does not keep up with the earlier ones (`KeepsUp`): on
    29 February, at an earlier hour than a credit of the day before, and in a birthday grant, whose
    reading was taken at the start of its job while purchases and adjustments read the clock under
    the profile's lock. As long as every credit keeps up, its points last a year. -/

namespace CinemaLoyalty
open Txn Transition

/-- The ledger row of a credit that extends the balance. -/
def PointsTransaction.isCredit (t : PointsTransaction) : Bool :=
  decide (0 < t.points) && decide (t.type ∈ [.EARN_TICKET, .EARN_SPECIAL, .EARN_BIRTHDAY, .ADMIN_ADDITION])

/-- The users credited between two states of the ledger. -/
def creditedUsers (db db' : DB) : List Uuid :=
  ((db'.pointsTransactions.drop db.pointsTransactions.length).filter (·.isCredit)).map (·.userId)

/-- When a user's balance expires. -/
def DB.expiryOf (db : DB) (u : Uuid) : Option Instant := (db.profiles u).bind (·.balanceExpiresAt)

/-- What a commit does to the expiries: nothing, or one credit sets its own. -/
inductive ExpiryStep (now : Instant) (db db' : DB) : Prop
  | still (he : ∀ v, db'.expiryOf v = db.expiryOf v) (hc : creditedUsers db db' = [])
  | credited {u : Uuid}
      (he : ∀ v, db'.expiryOf v = if v = u then some (addYears now 1) else db.expiryOf v)
      (hc : creditedUsers db db' = [u])

section step
variable {db db' : DB} {now : Instant} {u v : Uuid} {p q : LoyaltyProfile}

theorem creditedUsers_same (hl : db'.pointsTransactions = db.pointsTransactions) :
    creditedUsers db db' = [] := by
  unfold creditedUsers
  rw [hl, List.drop_length]
  rfl

theorem creditedUsers_posted {t : PointsTransaction}
    (hl : db'.pointsTransactions = db.pointsTransactions ++ [t]) :
    creditedUsers db db' = if t.isCredit then [t.userId] else [] := by
  unfold creditedUsers
  rw [hl, List.drop_left]
  cases h : t.isCredit <;> simp [h]

theorem expiryOf_same (hp : db'.profiles = db.profiles) (v : Uuid) :
    db'.expiryOf v = db.expiryOf v := by
  unfold DB.expiryOf
  rw [hp]

theorem expiryOf_updateProfile (hq : db.profiles u = some q) (v : Uuid) :
    (db.apply (.updateProfile u p)).expiryOf v =
      if v = u then p.balanceExpiresAt else db.expiryOf v :=
  updateProfile_column hq (·.balanceExpiresAt) v

/-- An update of the other columns. -/
theorem expiryOf_kept (hp : db'.profiles = (db.apply (.updateProfile u p)).profiles)
    (hq : db.profiles u = some q) (he : p.balanceExpiresAt = q.balanceExpiresAt) (v : Uuid) :
    db'.expiryOf v = db.expiryOf v := by
  rw [expiryOf_same hp, expiryOf_updateProfile hq]
  by_cases hv : v = u
  · rw [if_pos hv, he, hv]
    unfold DB.expiryOf
    rw [hq]
    rfl
  · rw [if_neg hv]

/-- A new profile has no expiry. -/
theorem expiryOf_ensure (u v : Uuid) : (db.ensureProfile u).expiryOf v = db.expiryOf v :=
  ensureProfile_column rfl u v

theorem expiryOf_ensured_same (hp : db'.profiles = (db.ensureProfile u).profiles) (v : Uuid) :
    db'.expiryOf v = db.expiryOf v :=
  (expiryOf_same hp v).trans (expiryOf_ensure u v)

/-- An update of a profile created if need be. -/
theorem expiryOf_ensured
    (hp : db'.profiles = ((db.ensureProfile u).apply (.updateProfile u p)).profiles) (v : Uuid) :
    db'.expiryOf v = if v = u then p.balanceExpiresAt else db.expiryOf v := by
  rw [expiryOf_same hp, expiryOf_updateProfile (ensureProfile_self u), expiryOf_ensure]

theorem expiryOf_ensured_kept
    (hp : db'.profiles = ((db.ensureProfile u).apply (.updateProfile u p)).profiles)
    (he : p.balanceExpiresAt = (db.profileOrDefault u).balanceExpiresAt) (v : Uuid) :
    db'.expiryOf v = db.expiryOf v := by
  rw [expiryOf_kept hp (ensureProfile_self u) he, expiryOf_ensure]

/-- A row that is no credit. -/
theorem still_posted {t : PointsTransaction} (he : ∀ v, db'.expiryOf v = db.expiryOf v)
    (hl : db'.pointsTransactions = db.pointsTransactions ++ [t]) (ht : t.isCredit = false) :
    ExpiryStep now db db' :=
  .still he (by rw [creditedUsers_posted hl, ht]; rfl)

theorem credited_posted {t : PointsTransaction}
    (he : ∀ v, db'.expiryOf v = if v = t.userId then some (addYears now 1) else db.expiryOf v)
    (hl : db'.pointsTransactions = db.pointsTransactions ++ [t]) (ht : t.isCredit = true) :
    ExpiryStep now db db' :=
  .credited he (by rw [creditedUsers_posted hl, ht]; rfl)

/-- A grant made on `x`, which has the expiries and the ledger of `db`. -/
theorem outcome_expiry {x : DB} {userId : UuidText} {res : BirthdayGrantResult}
    (he : ∀ v, x.expiryOf v = db.expiryOf v) (hl : x.pointsTransactions = db.pointsTransactions)
    (h : GrantOutcome x userId now res db') : ExpiryStep now db db' := by
  cases h with
  | unchanged => exact .still he (creditedUsers_same hl)
  | @granted p hn hp hb =>
    refine credited_posted (t := x.numbered
      (birthdayRow userId (p.balance + LOYALTY_RULES.BIRTHDAY_BONUS_POINTS) now)) (fun v => ?_) ?_ rfl
    · have hsame : (x.birthdayGranted userId p now).profiles =
          (x.apply (.updateProfile userId.value (p.birthdayGrant p.birthdayTier now))).profiles := by
        simp [DB.birthdayGranted]
      rw [expiryOf_same hsame, expiryOf_updateProfile hp, he]
      rfl
    · simp [DB.birthdayGranted, DB.numbered, hl]

theorem progressed_expiry {eventId : String} {userId : Uuid} {achievement : Achievement}
    {targetCount : ℤ} (h : ProgressOutcome db eventId userId achievement targetCount now db') :
    ExpiryStep now db db' := by
  cases h with
  | duplicate _ _ => exact .still (expiryOf_ensure userId) (creditedUsers_same (by simp))
  | swallowed _ _ _ =>
    refine .still (fun v => ?_) (creditedUsers_same (by simp [DB.marked]))
    exact expiryOf_ensured_same (u := userId) (by simp [DB.marked]) v
  | advanced _ _ _ =>
    refine .still (fun v => ?_) (creditedUsers_same (by simp [DB.marked]))
    exact expiryOf_ensured_same (u := userId) (by simp [DB.marked]) v
  | unlocked _ _ _ _ =>
    refine .still (fun v => ?_) (creditedUsers_same (by simp [DB.marked, DB.unlocked]))
    exact expiryOf_ensured_same (u := userId) (by simp [DB.marked, DB.unlocked]) v
  | @rewarded n _ _ _ _ =>
    have hprofiles : (((db.marked userId (uniqueProcessId eventId achievement)).unlocked userId
        achievement.id (advancedRow (db.userAchievements (userId, achievement.id)) targetCount n)
        now).rewarded userId achievement (db.profileOrDefault userId) now).profiles =
        ((db.ensureProfile userId).apply (.updateProfile userId
          { db.profileOrDefault userId with
            balance := (db.profileOrDefault userId).balance + achievement.rewardPoints
            lifetimePoints :=
              (db.profileOrDefault userId).lifetimePoints + achievement.rewardPoints })).profiles := by
      funext v
      simp [DB.marked, DB.unlocked, DB.rewarded, DB.post]
    refine still_posted (t := db.numbered (rewardRow userId achievement
      ((db.profileOrDefault userId).balance + achievement.rewardPoints) now))
      (expiryOf_ensured_kept hprofiles rfl) ?_ ?_
    · simp [DB.marked, DB.unlocked, DB.rewarded, DB.post, DB.numbered]
    · simp [PointsTransaction.isCredit, rewardRow, DB.numbered]

theorem purchased_expiry (db : DB) (msg : TicketPurchasedDto) (n : ℤ) (now : Instant)
    (rows : List (String × AchievementAction × Json)) :
    ExpiryStep now db ((db.purchased msg n now).withIntents msg.userId.value rows) := by
  have hprofiles : ((db.purchased msg n now).withIntents msg.userId.value rows).profiles =
      ((db.ensureProfile msg.userId.value).apply (.updateProfile msg.userId.value
        ((db.profileOrDefault msg.userId.value).purchase n
          ((db.profileOrDefault msg.userId.value).purchaseTier n) now
          (db.profileOrDefault msg.userId.value)))).profiles := by
    by_cases hn : n > 0 <;> simp [DB.purchased, DB.credited, hn, DB.post]
  by_cases hn : n > 0
  · refine credited_posted (t := db.numbered
      (msg.earnedRow n ((db.profileOrDefault msg.userId.value).balance + n) now))
      (fun v => ?_) ?_ ?_
    · rw [expiryOf_ensured hprofiles]
      simp [LoyaltyProfile.purchase, hn, TicketPurchasedDto.earnedRow]
    · simp [DB.purchased, DB.credited, hn, DB.post, DB.numbered]
    · rw [PointsTransaction.isCredit, Bool.and_eq_true, decide_eq_true_iff]
      refine ⟨hn, ?_⟩
      have htype : ∀ e, decide (resolveTransactionType e ∈
          [.EARN_TICKET, .EARN_SPECIAL, .EARN_BIRTHDAY, .ADMIN_ADDITION]) = true := by
        intro e
        cases e <;> decide
      exact htype _
  · refine .still (expiryOf_ensured_kept hprofiles ?_) (creditedUsers_same ?_)
    · simp [LoyaltyProfile.purchase, hn]
    · simp [DB.purchased, DB.credited, hn]

theorem adjusted_expiry (db : DB) (userId : UuidText) (adminId : String) (points : ℤ)
    (reason : String) (now : Instant) :
    ExpiryStep now db (db.adjusted userId adminId points reason now) := by
  have hprofiles : (db.adjusted userId adminId points reason now).profiles =
      ((db.ensureProfile userId.value).apply (.updateProfile userId.value
        ((db.profileOrDefault userId.value).adjust points
          ((db.profileOrDefault userId.value).adjustTier points) now))).profiles := by
    simp [DB.adjusted, DB.post]
  have hledger : (db.adjusted userId adminId points reason now).pointsTransactions =
      db.pointsTransactions ++ [db.numbered (adjustmentRow userId adminId points reason
        ((db.profileOrDefault userId.value).balance + points) now)] := by
    simp [DB.adjusted, DB.post, DB.numbered]
  by_cases hpos : points > 0
  · refine credited_posted (fun v => ?_) hledger ?_
    · rw [expiryOf_ensured hprofiles]
      simp [LoyaltyProfile.adjust, hpos, adjustmentRow]
    · simp [PointsTransaction.isCredit, adjustmentRow, DB.numbered, hpos]
  · refine still_posted (expiryOf_ensured_kept hprofiles ?_) hledger ?_
    · simp [LoyaltyProfile.adjust, hpos]
    · simp [PointsTransaction.isCredit, adjustmentRow, DB.numbered, hpos]

/-- Every call changes the expiries as its credit says. -/
theorem effect_expiry {c : Call} (h : Effect now db c db') : ExpiryStep now db db' := by
  cases h with
  | still _ => exact .still (fun _ => rfl) (creditedUsers_same rfl)
  | @deducted _ orderId _ _ command p _ _ hp =>
    have hprofiles : (db.deducted command p orderId now).profiles =
        (db.apply (.updateProfile command.userId
          { p with balance := p.balance - command.amount, lastActivityAt := some now })).profiles := by
      funext v
      simp [DB.deducted]
    refine still_posted (t := _) (expiryOf_kept hprofiles hp rfl) (by simp [DB.deducted]; rfl) ?_
    simp [PointCommand.debitRow, PointsTransaction.isCredit]
  | @refunded _ orderId _ _ command p debit _ _ hp =>
    have hprofiles : (db.refunded command p debit orderId now).profiles = (db.apply (.updateProfile
        command.userId { p with balance := p.balance - debit.points })).profiles := by
      funext v
      simp [DB.refunded]
    refine still_posted (t := _) (expiryOf_kept hprofiles hp rfl) (by simp [DB.refunded]; rfl) ?_
    simp [PointCommand.refundRow, PointsTransaction.isCredit]
  | purchaseSeen _ _ => exact .still (expiryOf_ensure _) (creditedUsers_same (by simp))
  | @purchased msg n rows _ _ _ => exact purchased_expiry db msg n now rows
  | @birthdaySet _ userId _ d _ _ h =>
    have hprofiles : (db.birthdaySet userId d).profiles =
        ((db.ensureProfile userId.value).apply (.updateProfile userId.value
          { db.profileOrDefault userId.value with birthdayDate := some d })).profiles := rfl
    exact outcome_expiry (expiryOf_ensured_kept hprofiles rfl) (by simp [DB.birthdaySet]) h
  | birthdayGranted h => exact outcome_expiry (fun _ => rfl) rfl h
  | @adjusted userId adminId reason points =>
    exact adjusted_expiry db userId adminId points reason now
  | @vipGranted userId adminId reason =>
    have hprofiles : (db.vipGranted userId adminId reason now).profiles =
        ((db.ensureProfile userId.value).apply (.updateProfile userId.value
          { db.profileOrDefault userId.value with tier := .GOLD })).profiles := by
      simp [DB.vipGranted, DB.post]
    refine still_posted (t := db.numbered (vipRow userId adminId reason
      (db.profileOrDefault userId.value).balance now)) (expiryOf_ensured_kept hprofiles rfl) ?_ rfl
    simp [DB.vipGranted, DB.post, DB.numbered]
  | progressed h => exact progressed_expiry h
  | @expired userId p hp =>
    have hprofiles : ((db.apply (.updateProfile userId { p with balance := 0 })).post
        (expireRow userId p.balance now)).profiles =
        (db.apply (.updateProfile userId { p with balance := 0 })).profiles := by
      simp [DB.post]
    refine still_posted (t := db.numbered (expireRow userId p.balance now))
      (expiryOf_kept hprofiles hp rfl) ?_ ?_
    · simp [DB.post, DB.numbered]
    · simp [PointsTransaction.isCredit, expireRow, DB.numbered]
  | annualReset hp => exact .still (expiryOf_kept rfl hp rfl) (creditedUsers_same (by simp))
  | goldReset hp _ => exact .still (expiryOf_kept rfl hp rfl) (creditedUsers_same (by simp))
  | @reserved userId orderId p hp _ _ _ _ =>
    have hprofiles : (db.reserved userId orderId p now).profiles =
        (db.apply (.updateProfile userId.value
          { p with goldUpgradeUsedMonth := some (getUtcMonthKey now) })).profiles := by
      funext v
      simp [DB.reserved]
    exact .still (expiryOf_kept hprofiles hp rfl) (creditedUsers_same (by simp [DB.reserved]))
  | @rolledBack userId orderId p r hp _ _ =>
    unfold DB.rolledBack
    simp only
    split
    · have hprofiles : ((db.apply (.release userId.value orderId.value now)).apply
          (.updateProfile userId.value { p with goldUpgradeUsedMonth := none })).profiles =
          (db.apply (.updateProfile userId.value { p with goldUpgradeUsedMonth := none })).profiles := by
        funext v
        simp
      exact .still (expiryOf_kept hprofiles hp rfl) (creditedUsers_same (by simp))
    · exact .still (expiryOf_same (by simp)) (creditedUsers_same (by simp))

/-- Every operation changes the expiries as its credit says. -/
theorem op_expiry (op : Op) (db : DB) :
    (∃ c now, op = .call c now ∧ ExpiryStep now db (op.exec db)) ∨
      (∀ v, (op.exec db).expiryOf v = db.expiryOf v) ∧ creditedUsers db (op.exec db) = [] := by
  have heff := op_effect op db
  generalize op.exec db = db' at heff ⊢
  cases heff with
  | call heff => exact .inl ⟨_, _, rfl, effect_expiry heff⟩
  | ensured u => exact .inr ⟨expiryOf_ensure u, creditedUsers_same (by simp)⟩
  | defined _ achievements => exact .inr ⟨fun _ => rfl, creditedUsers_same rfl⟩

end step

/-! ### Runs under a clock -/

/-- A credit to a user: the clock reading it carries, and the reading when it was made. -/
structure Credit where
  user : Uuid
  carried : Instant
  made : Instant

/-- The database, the clock, and the credits so far. -/
structure CreditRun where
  db : DB
  clock : Instant
  credits : List Credit

/-- The calls that read the clock under the profile's lock, when they take effect. -/
def Call.readsClock : Call → Bool
  | .processTicketPurchase _ | .modifyPointsGrpc .. => true
  | _ => false

/-- The clock reading an operation carries. -/
def Op.carried : Op → Option Instant
  | .call _ now => some now
  | _ => none

/-- An operation carries the reading of its own time, or, where the clock was read beforehand, an
    earlier one. -/
def Op.timely (reading : Instant) : Op → Bool
  | .call c now => if c.readsClock then now = reading else now ≤ reading
  | _ => true

/-- Operations in the order of the clock. -/
def creditRuns (start : Instant) : System CreditRun (Op × Instant) where
  first := { db := DB.empty, clock := start, credits := [] }
  step := fun (op, reading) s =>
    if s.clock ≤ reading ∧ op.timely reading = true then
      some
        { db := op.exec s.db
          clock := reading
          credits := s.credits ++ (creditedUsers s.db (op.exec s.db)).flatMap fun user =>
            op.carried.toList.map fun carried => { user, carried, made := reading } }
    else none

/-- A credit carries a reading that keeps up with those of the user's earlier credits. -/
def InOrder : Op × Instant → CreditRun → Prop
  | (op, _), s => ∀ user ∈ creditedUsers s.db (op.exec s.db), ∀ carried ∈ op.carried,
    ∀ c ∈ s.credits, c.user = user → KeepsUp c.carried carried

/-- No expiry is moved to an earlier instant. -/
def NeverEarlier (s s' : CreditRun) : Prop :=
  ∀ u e, s.db.expiryOf u = some e → ∃ e', s'.db.expiryOf u = some e' ∧ e ≤ e'

/-- What a run keeps: no expiry lies before the end of a credit's year, and each comes from one. -/
structure Lasting (s : CreditRun) : Prop where
  outlasts : ∀ c ∈ s.credits, ∃ e, s.db.expiryOf c.user = some e ∧ addYears c.carried 1 ≤ e
  earned : ∀ u e, s.db.expiryOf u = some e → ∃ c ∈ s.credits, c.user = u ∧ e = addYears c.carried 1

section runs
variable {start reading : Instant} {op : Op} {s s' : CreditRun}

/-- A timely operation takes place. -/
theorem creditRuns_step (hclock : s.clock ≤ reading) (htimely : op.timely reading = true) :
    ∃ s', (creditRuns start).step (op, reading) s = some s' ∧ s'.db = op.exec s.db :=
  ⟨_, by simp only [creditRuns]; exact if_pos ⟨hclock, htimely⟩, rfl⟩

/-- What a step of a run does. -/
theorem creditRuns_cases (h : (creditRuns start).step (op, reading) s = some s') :
    op.timely reading = true ∧ s'.db = op.exec s.db ∧
      ((∃ carried u, op.carried = some carried ∧ creditedUsers s.db (op.exec s.db) = [u] ∧
        (∀ v, s'.db.expiryOf v = if v = u then some (addYears carried 1) else s.db.expiryOf v) ∧
        s'.credits = s.credits ++ [{ user := u, carried, made := reading }]) ∨
      (∀ v, s'.db.expiryOf v = s.db.expiryOf v) ∧ creditedUsers s.db (op.exec s.db) = [] ∧
        s'.credits = s.credits) := by
  simp only [creditRuns, Option.ite_none_right_eq_some, Option.some.injEq] at h
  obtain ⟨⟨-, htimely⟩, rfl⟩ := h
  refine ⟨htimely, rfl, ?_⟩
  rcases op_expiry op s.db with ⟨c, now, rfl, hstep⟩ | ⟨he, hc⟩
  · cases hstep with
    | still he hc => exact .inr ⟨he, hc, by simp [hc]⟩
    | @credited u he hc => exact .inl ⟨now, u, rfl, hc, he, by simp [hc, Op.carried]⟩
  · exact .inr ⟨he, hc, by simp [hc]⟩

/-- A credit in order is what keeps the expiry from moving back. -/
theorem neverEarlier_iff (hs : Lasting s) (h : (creditRuns start).step (op, reading) s = some s') :
    NeverEarlier s s' ↔ InOrder (op, reading) s := by
  obtain ⟨-, -, ⟨carried, u, hop, hc, he, -⟩ | ⟨he, hc, -⟩⟩ := creditRuns_cases h
  · constructor
    · intro hnever user huser carried' hcarried c hmem hcu
      rw [hc, List.mem_singleton] at huser
      rw [hop, Option.mem_some_iff] at hcarried
      obtain ⟨e, hexp, hle⟩ := hs.outlasts c hmem
      rw [hcu, huser] at hexp
      obtain ⟨e', hexp', hle'⟩ := hnever u e hexp
      rw [he, if_pos rfl, Option.some.injEq] at hexp'
      rw [← hcarried, ← addYears_le_iff, hexp']
      exact hle.trans hle'
    · intro horder v e hexp
      by_cases hv : v = u
      · obtain ⟨c, hmem, hcu, rfl⟩ := hs.earned v e hexp
        have hkeeps : KeepsUp c.carried carried :=
          horder u (by rw [hc]; exact List.mem_singleton_self u) carried hop c hmem (hcu.trans hv)
        exact ⟨_, by rw [he, if_pos hv], addYears_le_iff.2 hkeeps⟩
      · exact ⟨e, by rw [he, if_neg hv]; exact hexp, le_rfl⟩
  · refine iff_of_true (fun v e hexp => ⟨e, by rw [he]; exact hexp, le_rfl⟩) fun user huser => ?_
    rw [hc] at huser
    cases huser

theorem lasting_step (horder : InOrder (op, reading) s)
    (h : (creditRuns start).step (op, reading) s = some s') (hs : Lasting s) : Lasting s' := by
  have hnever := (neverEarlier_iff hs h).2 horder
  have hold : ∀ c ∈ s.credits, ∃ e, s'.db.expiryOf c.user = some e ∧ addYears c.carried 1 ≤ e := by
    intro c hmem
    obtain ⟨e, hexp, hle⟩ := hs.outlasts c hmem
    obtain ⟨e', hexp', hle'⟩ := hnever c.user e hexp
    exact ⟨e', hexp', hle.trans hle'⟩
  obtain ⟨-, -, ⟨carried, u, -, -, he, hcredits⟩ | ⟨he, -, hcredits⟩⟩ := creditRuns_cases h
  · constructor
    · intro c hmem
      rw [hcredits, List.mem_append, List.mem_singleton] at hmem
      rcases hmem with hmem | rfl
      · exact hold c hmem
      · exact ⟨_, by rw [he, if_pos rfl], le_rfl⟩
    · intro v e hexp
      rw [he] at hexp
      rw [hcredits]
      split at hexp
      · rename_i hv
        cases hexp
        exact ⟨_, List.mem_append_right _ (List.mem_singleton_self _), hv.symm, rfl⟩
      · obtain ⟨c, hmem, hc⟩ := hs.earned v e hexp
        exact ⟨c, List.mem_append_left _ hmem, hc⟩
  · rw [show s' = ⟨s'.db, s'.clock, s.credits⟩ by rw [← hcredits]] at hold ⊢
    exact ⟨hold, fun v e hexp => hs.earned v e (by rw [← he]; exact hexp)⟩

/-- Purchases and adjustments carry a reading of their own time. -/
theorem readsClock_keepsUp {c : Call} {carried : Instant} (hc : c.readsClock = true)
    (h : (creditRuns start).step (.call c carried, reading) s = some s') :
    KeepsUp reading carried := by
  obtain ⟨htimely, -⟩ := creditRuns_cases h
  simp only [Op.timely, hc, if_true, decide_eq_true_eq] at htimely
  rw [htimely]
  exact addYears_le_iff.1 le_rfl

/-- `expirePoints` takes only points that have expired. -/
theorem expirePoints_due {user : Uuid} {now : Instant} {db : DB}
    (h : (Op.call (.expirePoints user) now).exec db ≠ db) :
    ∃ e, db.expiryOf user = some e ∧ e ≤ now := by
  rcases exec_cases (.expirePoints user) now db with ⟨e, -, he⟩ | ⟨a, db', hr, he⟩
  · exact absurd (by simp only [Op.exec, he]) h
  · obtain ⟨res, hrun, -⟩ := run_wrap hr
    rcases expirePointsStep_ok hrun with rfl | ⟨p, hp, -, hdue, rfl⟩
    · exact absurd (by simp only [Op.exec, he]) h
    · obtain ⟨e, hexp, hle⟩ := (Option.any_eq_true _ _).1 hdue
      refine ⟨e, ?_, of_decide_eq_true hle⟩
      unfold DB.expiryOf
      rw [hp]
      exact hexp

end runs

/-- In a run whose credits are all in order: the next step moves no expiry to an earlier instant if
    and only if it is in order too; and `expirePoints` at `now` takes points of a user only when a
    year has passed since the reading each credit carries, and since the credit was made when the
    reading keeps up with that time, as it does for purchases and adjustments. -/
theorem credits_last {start : Instant} {s : CreditRun}
    (hr : (creditRuns start).ReachedBy InOrder s) :
    (∀ op reading s', (creditRuns start).step (op, reading) s = some s' →
      (NeverEarlier s s' ↔ InOrder (op, reading) s)) ∧
    (∀ user now reading s',
      (creditRuns start).step (.call (.expirePoints user) now, reading) s = some s' →
      s'.db ≠ s.db → ∀ c ∈ s.credits, c.user = user →
        addYears c.carried 1 ≤ now ∧ (KeepsUp c.made c.carried → addYears c.made 1 ≤ now)) := by
  have hfirst : Lasting (creditRuns start).first := ⟨nofun, nofun⟩
  have hlasting : Lasting s := hr.invariant hfirst fun horder h hs => lasting_step horder h hs
  refine ⟨fun op reading s' h => neverEarlier_iff hlasting h, ?_⟩
  intro user now reading s' h hchange c hmem hcu
  obtain ⟨-, hdb, -⟩ := creditRuns_cases h
  rw [hdb] at hchange
  obtain ⟨e, hexp, hdue⟩ := expirePoints_due hchange
  obtain ⟨e', hexp', hle⟩ := hlasting.outlasts c hmem
  rw [hcu, hexp, Option.some.injEq] at hexp'
  subst hexp'
  exact ⟨hle.trans hdue, fun hkeeps => (addYears_le_iff.2 hkeeps).trans (hle.trans hdue)⟩

/-- An adjustment by ten points, at its own time. -/
def tenPoints (reading : Instant) : Op × Instant :=
  (.call (.modifyPointsGrpc ⟨Uuid.nil.text, .nil, nilText_named⟩ "admin" 10 "gift") reading, reading)

instance (t now : Instant) : Decidable (KeepsUp t now) := decidable_of_iff _ addYears_le_iff

instance : ∀ (a : Op × Instant) (s : CreditRun), Decidable (InOrder a s)
  | (op, _), s => inferInstanceAs (Decidable (∀ user ∈ creditedUsers s.db (op.exec s.db),
      ∀ carried ∈ op.carried, ∀ c ∈ s.credits, c.user = user → KeepsUp c.carried carried))

/-- Two credits of one user, the second a month after the first: a year after the first nothing
    expires, since the second moved the expiry on. -/
theorem credits_last_gifts : ∃ s, (creditRuns 0).ReachedBy InOrder s ∧ s.credits.length = 2 ∧
    (Op.call (.expirePoints .nil) (366 * MS_IN_A_DAY)).exec s.db = s.db := by
  obtain ⟨s, hr, hs⟩ := (creditRuns 0).reachedBy_of_exec InOrder
    [tenPoints 0, tenPoints (31 * MS_IN_A_DAY)]
    (fun s => decide (s.credits.map (fun c => (c.user, c.carried)) =
      [(Uuid.nil, 0), (Uuid.nil, 31 * MS_IN_A_DAY)] ∧ s.clock = 31 * MS_IN_A_DAY)) (by decide +kernel)
  obtain ⟨hcredits, hclock⟩ := of_decide_eq_true hs
  refine ⟨s, hr, by simpa using congrArg List.length hcredits, ?_⟩
  by_contra hchange
  obtain ⟨s', hstep, hdb⟩ := @creditRuns_step 0 (366 * MS_IN_A_DAY)
    (.call (.expirePoints .nil) (366 * MS_IN_A_DAY)) s (by rw [hclock]; decide) (by decide)
  rw [← hdb] at hchange
  have hsecond : (Uuid.nil, 31 * MS_IN_A_DAY) ∈ s.credits.map fun c => (c.user, c.carried) := by
    rw [hcredits]
    exact List.mem_cons_of_mem _ (List.mem_singleton_self _)
  obtain ⟨c, hmem, hc⟩ := List.mem_map.1 hsecond
  obtain ⟨huser, hcarried⟩ := Prod.mk.inj hc
  have hyear := (credits_last hr).2 .nil _ _ _ hstep hchange c hmem huser
  rw [hcarried] at hyear
  exact absurd hyear.1 (by decide)

/-- Points of noon on 28 February 2024 lose two hours to ten o'clock on the next day. -/
theorem leapDay_overtaken : ¬∀ start s, (creditRuns start).Reached s → ∀ op reading s',
    (creditRuns start).step (op, reading) s = some s' → NeverEarlier s s' := by
  intro hclaim
  obtain ⟨s, hreached, hs⟩ := (creditRuns (dateUTC 2024 1 28 + 43200000)).reached_of_exec
    [tenPoints (dateUTC 2024 1 28 + 43200000)]
    (fun s => decide (s.clock = dateUTC 2024 1 28 + 43200000 ∧
      s.db.expiryOf .nil = some (dateUTC 2025 1 28 + 43200000) ∧
      ((tenPoints (dateUTC 2024 1 29 + 36000000)).1.exec s.db).expiryOf .nil =
        some (dateUTC 2025 1 28 + 36000000))) (by decide +kernel)
  obtain ⟨hclock, hbefore, hafter⟩ := of_decide_eq_true hs
  obtain ⟨s', hstep, hdb⟩ := @creditRuns_step (dateUTC 2024 1 28 + 43200000)
    (dateUTC 2024 1 29 + 36000000) (tenPoints (dateUTC 2024 1 29 + 36000000)).1 s
    (by rw [hclock]; decide) (by decide)
  obtain ⟨e, he, hle⟩ := hclaim _ _ hreached _ _ s' hstep Uuid.nil _ hbefore
  rw [hdb, hafter, Option.some.injEq] at he
  subst he
  exact absurd hle (by decide)

end CinemaLoyalty
