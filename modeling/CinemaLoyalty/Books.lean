import CinemaLoyalty.Effects
import CinemaLoyalty.Lib.RunningTotal

/-! @svc Books | layer:property | source:src/loyalty, src/achievements

    The books balance. Every change moves each user's account by at most one ledger row, for exactly
    the difference (`change_moves`), so after every run from the empty database the balance is the
    sum of the user's rows, never negative, and every row states the balance after it. -/

namespace CinemaLoyalty
open RunningTotal

/-- The balance of a user, 0 without a profile. -/
def DB.balanceOf (db : DB) (userId : Uuid) : ℤ := (db.profileOrDefault userId).balance

/-- The account of a user is in order. -/
def DB.Balanced (db : DB) (userId : Uuid) : Prop :=
  Account PointsTransaction.points PointsTransaction.balanceAfter (db.balanceOf userId)
    (db.ledgerOf userId)

/-- How a change moves the account of a user. -/
def DB.MovesTo (db db' : DB) (userId : Uuid) : Prop :=
  Moves PointsTransaction.points PointsTransaction.balanceAfter (db.balanceOf userId)
    (db.ledgerOf userId) (db'.balanceOf userId) (db'.ledgerOf userId)

section moves
variable {db db' : DB} {u : Uuid}

theorem moves_still (hb : db'.balanceOf u = db.balanceOf u) (hl : db'.ledgerOf u = db.ledgerOf u) :
    db.MovesTo db' u := by
  unfold DB.MovesTo
  rw [hb, hl]
  exact .still

theorem moves_posted {t : PointsTransaction} (hb : db'.balanceOf u = t.balanceAfter)
    (hl : db'.ledgerOf u = db.ledgerOf u ++ [t]) (ht : t.balanceAfter = db.balanceOf u + t.points)
    (hpos : 0 ≤ db.balanceOf u → 0 ≤ t.balanceAfter) : db.MovesTo db' u := by
  unfold DB.MovesTo
  rw [hb, hl]
  exact .posted ht hpos

theorem balanceOf_ensure (v : Uuid) : (db.ensureProfile v).balanceOf u = db.balanceOf u := by
  unfold DB.balanceOf DB.profileOrDefault
  by_cases h : u = v
  · subst h; simp [DB.profileOrDefault]
  · simp [h]

/-- Two databases with the same profile of a user have the same balance. -/
theorem balanceOf_congr (h : db'.profiles u = db.profiles u) : db'.balanceOf u = db.balanceOf u := by
  unfold DB.balanceOf DB.profileOrDefault
  rw [h]

/-- One profile version that keeps the balance: `x` is `db` before it, `db'` differs from the result
    in other tables only. -/
theorem moves_kept {x : DB} {v : Uuid} {p q : LoyaltyProfile}
    (hx : ∀ w, x.balanceOf w = db.balanceOf w ∧ x.ledgerOf w = db.ledgerOf w)
    (hp : x.profiles v = some p) (hrow : q.balance = p.balance)
    (hprof : db'.profiles = (x.apply (.updateProfile v q)).profiles)
    (hled : ∀ w, db'.ledgerOf w = x.ledgerOf w) : db.MovesTo db' u := by
  refine moves_still ?_ ((hled u).trans (hx u).2)
  rw [balanceOf_congr (congrFun hprof u), ← (hx u).1]
  unfold DB.balanceOf
  rw [profileOrDefault_update q hp]
  split
  · rename_i h
    rw [h, profileOrDefault_of hp, hrow]
  · rfl

/-- One profile version and one ledger row that agree: `x` is `db` before them, `db'` differs from
    the result in other tables only. -/
theorem moves_post {x : DB} {v : Uuid} {p q : LoyaltyProfile} {t : PointsTransaction}
    (hx : ∀ w, x.balanceOf w = db.balanceOf w ∧ x.ledgerOf w = db.ledgerOf w)
    (hp : x.profiles v = some p) (hv : t.userId = v) (hrow : q.balance = t.balanceAfter)
    (ht : t.balanceAfter = p.balance + t.points) (hpos : 0 ≤ p.balance → 0 ≤ t.balanceAfter)
    (hprof : db'.profiles = (x.apply (.updateProfile v q)).profiles)
    (hled : ∀ w, db'.ledgerOf w = ((x.apply (.updateProfile v q)).post t).ledgerOf w) :
    db.MovesTo db' u := by
  have hb : db'.balanceOf u = if u = v then t.balanceAfter else db.balanceOf u := by
    rw [balanceOf_congr (congrFun hprof u)]
    unfold DB.balanceOf
    rw [profileOrDefault_update q hp]
    split
    · exact hrow
    · exact (hx u).1
  have hl : db'.ledgerOf u = if v = u then db.ledgerOf u ++ [x.numbered t] else db.ledgerOf u := by
    rw [hled u, ← (hx u).2]
    simp [DB.post, DB.numbered, hv]
  have hpb : db.balanceOf v = p.balance := by
    rw [← (hx v).1]; unfold DB.balanceOf; rw [profileOrDefault_of hp]
  by_cases h : u = v
  · subst h
    rw [if_pos rfl] at hb hl
    refine moves_posted (t := x.numbered t) hb hl ?_ ?_
    · rw [numbered_balanceAfter, numbered_points, hpb, ht]
    · rw [hpb]; exact hpos
  · rw [if_neg h] at hb
    rw [if_neg (Ne.symm h)] at hl
    exact moves_still hb hl

theorem deducted_moves {command : PointCommand} {p : LoyaltyProfile} {orderId : String}
    {now : Instant} (hp : db.profiles command.userId = some p) (hbal : command.amount ≤ p.balance) :
    db.MovesTo (db.deducted command p orderId now) u := by
  refine moves_post (v := command.userId)
    (x := db.apply (.event (command.record (p.balance - command.amount))))
    (t := command.debitRow (db.ledgerOf command.userId).length (p.balance - command.amount) orderId now)
    (q := { p with balance := p.balance - command.amount, lastActivityAt := some now })
    (fun w => ⟨balanceOf_congr (by simp), by simp⟩) (by simpa using hp) rfl rfl ?_ ?_ rfl ?_
  · simp only [PointCommand.debitRow]; omega
  · intro _; simp only [PointCommand.debitRow]; omega
  · intro w; simp [DB.deducted, DB.post, PointCommand.debitRow, DB.numbered]

theorem refunded_moves {command : PointCommand} {p : LoyaltyProfile} {debit : PointsTransaction}
    {orderId : String} {now : Instant} (hp : db.profiles command.userId = some p)
    (hneg : debit.points < 0) (hamount : command.amount = -debit.points) :
    db.MovesTo (db.refunded command p debit orderId now) u := by
  refine moves_post (v := command.userId) (x := db.apply (.event (command.record (p.balance - debit.points))))
    (t := command.refundRow (db.ledgerOf command.userId).length (p.balance - debit.points) orderId now)
    (q := { p with balance := p.balance - debit.points })
    (fun w => ⟨balanceOf_congr (by simp), by simp⟩) (by simpa using hp) rfl rfl ?_ ?_ rfl ?_
  · simp only [PointCommand.refundRow]; omega
  · intro _; simp only [PointCommand.refundRow]; omega
  · intro w; simp [DB.refunded, DB.post, PointCommand.refundRow, DB.numbered]

theorem ensure_same (v w : Uuid) : (db.ensureProfile v).balanceOf w = db.balanceOf w ∧
    (db.ensureProfile v).ledgerOf w = db.ledgerOf w :=
  ⟨balanceOf_ensure v, ensureProfile_ledgerOf v w⟩

theorem purchase_balance (p q : LoyaltyProfile) (n : ℤ) (t : Tier) (now : Instant) :
    (p.purchase n t now q).balance = if n > 0 then p.balance + n else q.balance := by
  unfold LoyaltyProfile.purchase
  simp only
  split <;> rfl

theorem purchased_moves {msg : TicketPurchasedDto} {n : ℤ} {now : Instant}
    {rows : List (String × AchievementAction × Json)} :
    db.MovesTo ((db.purchased msg n now).withIntents msg.userId.value rows) u := by
  generalize hp : db.profileOrDefault msg.userId.value = p
  have hprof : (db.ensureProfile msg.userId.value).profiles msg.userId.value = some p := by
    rw [ensureProfile_profiles, if_pos rfl, hp]
  by_cases hn : n > 0
  · refine moves_post (x := db.ensureProfile msg.userId.value)
      (t := msg.earnedRow n (p.balance + n) now)
      (q := p.purchase n (p.purchaseTier n) now p) (ensure_same _) hprof rfl ?_ rfl ?_ ?_ ?_
    · rw [purchase_balance, if_pos hn]; rfl
    · intro h; simp only [TicketPurchasedDto.earnedRow]; omega
    · simp [DB.purchased, DB.credited, hn, hp, DB.post]
    · intro w; simp [DB.purchased, DB.credited, hn, hp, DB.post]
  · refine moves_kept (ensure_same _) hprof (q := p.purchase n (p.purchaseTier n) now p) ?_ ?_ ?_
    · rw [purchase_balance, if_neg hn]
    · simp [DB.purchased, DB.credited, hn, hp]
    · intro w; simp [DB.purchased, DB.credited, hn]

theorem birthdaySet_moves {userId : UuidText} {d : Instant} :
    db.MovesTo (db.birthdaySet userId d) u := by
  refine moves_kept (x := db.ensureProfile userId.value) (ensure_same _)
    (ensureProfile_self _) ?_ rfl (by simp [DB.birthdaySet])
  rfl

theorem birthdayGranted_moves {userId : UuidText} {p : LoyaltyProfile} {now : Instant}
    (hp : db.profiles userId.value = some p) : db.MovesTo (db.birthdayGranted userId p now) u := by
  refine moves_post (v := userId.value) (x := db)
    (t := birthdayRow userId (p.balance + LOYALTY_RULES.BIRTHDAY_BONUS_POINTS) now)
    (q := p.birthdayGrant p.birthdayTier now) (fun _ => ⟨rfl, rfl⟩) hp rfl rfl rfl ?_ ?_ ?_
  · intro h; simp only [birthdayRow, LOYALTY_RULES.BIRTHDAY_BONUS_POINTS]; omega
  · simp [DB.birthdayGranted]
  · intro w; simp [DB.birthdayGranted, DB.post]

theorem adjusted_moves {userId : UuidText} {adminId reason : String} {points : ℤ} {now : Instant}
    (hpos : 0 ≤ (db.profileOrDefault userId.value).balance + points) :
    db.MovesTo (db.adjusted userId adminId points reason now) u := by
  generalize hp : db.profileOrDefault userId.value = p at hpos
  refine moves_post (v := userId.value) (x := db.ensureProfile userId.value) (p := p)
    (t := adjustmentRow userId adminId points reason (p.balance + points) now)
    (q := p.adjust points (p.adjustTier points) now) (ensure_same _) (by simp [hp]) rfl ?_ rfl
    (fun _ => hpos) ?_ ?_
  · rw [adjust_balance]; rfl
  · simp [DB.adjusted, hp, DB.post]
  · intro w; simp [DB.adjusted, hp, DB.post]

theorem vipGranted_moves {userId : UuidText} {adminId reason : String} {now : Instant} :
    db.MovesTo (db.vipGranted userId adminId reason now) u := by
  generalize hp : db.profileOrDefault userId.value = p
  refine moves_post (v := userId.value) (x := db.ensureProfile userId.value) (p := p)
    (t := vipRow userId adminId reason p.balance now)
    (q := { p with tier := .GOLD }) (ensure_same _) (by simp [hp]) rfl rfl ?_ (fun h => h) ?_ ?_
  · simp [vipRow]
  · simp [DB.vipGranted, hp, DB.post]
  · intro w; simp [DB.vipGranted, hp, DB.post]

theorem expired_moves {userId : Uuid} {p : LoyaltyProfile} {now : Instant}
    (hp : db.profiles userId = some p) :
    db.MovesTo ((db.apply (.updateProfile userId { p with balance := 0 })).post
      (expireRow userId p.balance now)) u := by
  refine moves_post (v := userId) (x := db) (t := expireRow userId p.balance now)
    (q := { p with balance := 0 }) (fun _ => ⟨rfl, rfl⟩) hp rfl rfl ?_ (fun _ => le_refl _) ?_
    (fun _ => rfl)
  · simp [expireRow]
  · simp [DB.post]

/-- A marker leaves every account alone. -/
theorem marked_same (v : Uuid) (marker : String) (w : Uuid) :
    (db.marked v marker).balanceOf w = db.balanceOf w ∧
      (db.marked v marker).ledgerOf w = db.ledgerOf w := by
  constructor
  · exact (balanceOf_congr (by simp [DB.marked])).trans (balanceOf_ensure v)
  · simp [DB.marked]

theorem progressed_moves {eventId : String} {userId : Uuid} {achievement : Achievement}
    {targetCount : ℤ} {now : Instant}
    (h : ProgressOutcome db eventId userId achievement targetCount now db') : db.MovesTo db' u := by
  have hmark := @marked_same db userId (uniqueProcessId eventId achievement)
  cases h with
  | duplicate _ _ => exact moves_still (ensure_same _ _).1 (ensure_same _ _).2
  | swallowed _ _ _ => exact moves_still (hmark u).1 (hmark u).2
  | advanced _ _ _ =>
    exact moves_still ((balanceOf_congr (by simp)).trans (hmark u).1)
      (Eq.trans (by simp) (hmark u).2)
  | unlocked _ _ _ _ =>
    exact moves_still ((balanceOf_congr (by simp [DB.unlocked])).trans (hmark u).1)
      (Eq.trans (by simp [DB.unlocked]) (hmark u).2)
  | @rewarded n _ _ _ hr =>
    generalize hp : db.profileOrDefault userId = p
    refine moves_post (v := userId) (p := p)
      (x := (db.marked userId (uniqueProcessId eventId achievement)).unlocked userId achievement.id
        (advancedRow (db.userAchievements (userId, achievement.id)) targetCount n) now)
      (t := rewardRow userId achievement (p.balance + achievement.rewardPoints) now) ?_ ?_ rfl rfl rfl
      ?_ ?_ (fun _ => rfl)
    · intro w
      exact ⟨(balanceOf_congr (by simp [DB.unlocked])).trans (hmark w).1,
        Eq.trans (by simp [DB.unlocked]) (hmark w).2⟩
    · simp [DB.unlocked, DB.marked, hp]
    · intro h; simp only [rewardRow]; omega
    · simp [DB.rewarded, DB.post]

/-- Every change moves every account by at most one row that agrees with it. -/
theorem change_moves {allowed : Call → Prop} (h : Change allowed db db') : db.MovesTo db' u := by
  cases h with
  | ensured v => exact moves_still (ensure_same _ _).1 (ensure_same _ _).2
  | deducted _ _ _ hp _ hbal => exact deducted_moves hp hbal
  | refunded _ _ _ hp hdebit _ _ hamount =>
    have hd := (List.mem_filter.1 (hdebit ▸ List.mem_singleton_self _)).2
    simp only [isDebitOf, Bool.and_eq_true, decide_eq_true_eq] at hd
    exact refunded_moves hp hd.2 hamount
  | purchased _ _ _ _ => exact purchased_moves
  | birthdaySet _ _ => exact birthdaySet_moves
  | birthdayGranted _ hp _ => exact birthdayGranted_moves hp
  | adjusted _ hpos => exact adjusted_moves hpos
  | vipGranted _ => exact vipGranted_moves
  | expired hp _ => exact expired_moves hp
  | annualReset hp =>
    refine moves_kept (fun _ => ⟨rfl, rfl⟩) hp ?_ rfl (by simp)
    rfl
  | mirrored _ hp =>
    refine moves_kept (fun _ => ⟨rfl, rfl⟩) hp ?_ rfl (by simp)
    rfl
  | reserved r => exact moves_still (balanceOf_congr (by simp)) (by simp)
  | released _ _ _ => exact moves_still (balanceOf_congr (by simp)) (by simp)
  | progressed _ h => exact progressed_moves h
  | defined _ => exact moves_still rfl rfl

end moves

/-- Every account is in order after every run. -/
theorem run_balanced (ops : List Op) (userId : Uuid) : (DB.empty.runOps ops).Balanced userId := by
  refine run_invariant (I := fun db => db.Balanced userId) (fun db db' hI hc => ?_) ops ?_
  · exact account_moves hI (change_moves hc)
  · exact ⟨rfl, le_refl _, trivial⟩

/-- The sum of the points of some ledger rows. -/
def pointsOf (rows : List PointsTransaction) : ℤ := (rows.map (·.points)).sum

/-- After any sequence of operations from the empty database, each profile's balance is the sum of
    that user's ledger rows and not negative, and each row's `balanceAfter` is the sum of that
    user's rows up to and including it. -/
theorem books_balance (ops : List Op) (userId : Uuid) :
    (∀ p, (DB.empty.runOps ops).profiles userId = some p →
      p.balance = pointsOf ((DB.empty.runOps ops).ledgerOf userId) ∧ 0 ≤ p.balance) ∧
    ∀ before t after, (DB.empty.runOps ops).ledgerOf userId = before ++ t :: after →
      t.balanceAfter = pointsOf (before ++ [t]) := by
  have hb := run_balanced ops userId
  refine ⟨fun p hp => ?_, fun before t after hl => ?_⟩
  · have hbal : (DB.empty.runOps ops).balanceOf userId = p.balance := by
      unfold DB.balanceOf; rw [profileOrDefault_of hp]
    exact ⟨hbal ▸ hb.total, hbal ▸ hb.nonneg⟩
  · have hrun := hb.running
    rw [hl] at hrun
    rw [running_at hrun, zero_add]
    rfl

end CinemaLoyalty
