import CinemaLoyalty.Compensation
import CinemaLoyalty.Tiers

/-! @svc Counters | layer:property | source:src/loyalty, src/achievements

    What `lifetimePoints` counts. Every change appends at most one ledger row to a user and raises
    `lifetimePoints` by exactly the points of an earning row (`change_accrues`), so the counter is the
    sum of the earning rows and never falls. It bounds the balance because every refund repays a debit
    (`Compensated`), and it bounds the year's points because they grow with it. -/

namespace CinemaLoyalty
open RunningTotal

/-- The ledger types that count towards `lifetimePoints`. -/
def PointsTransactionType.isEarning : PointsTransactionType → Bool
  | .EARN_TICKET | .EARN_SPECIAL | .EARN_BIRTHDAY | .EARN_ACHIEVEMENT | .ADMIN_ADDITION => true
  | _ => false

/-- The debits and refunds of checkouts. -/
def PointsTransactionType.isCheckout : PointsTransactionType → Bool
  | .BURN_DISCOUNT | .REFUND => true
  | _ => false

/-- The lifetime points of a user, 0 without a profile. -/
def DB.lifetimeOf (db : DB) (userId : Uuid) : ℤ := (db.profileOrDefault userId).lifetimePoints

/-- The year's points of a user, 0 without a profile. -/
def DB.yearPointsOf (db : DB) (userId : Uuid) : ℤ := (db.profileOrDefault userId).yearPoints

/-- What a row adds to the lifetime points of its user. -/
def PointsTransaction.earned (t : PointsTransaction) : ℤ := if t.type.isEarning then t.points else 0

/-- Earning rows add points, checkout rows name their order, the others take points away. -/
structure PointsTransaction.Signed (t : PointsTransaction) : Prop where
  earning : t.type.isEarning = true → 0 ≤ t.points
  checkout : t.type.isCheckout = true → t.orderId.isSome = true
  spending : t.type.isEarning = false → t.type.isCheckout = false → t.points ≤ 0

theorem PointsTransaction.Signed.earned_nonneg {t : PointsTransaction} (h : t.Signed) :
    0 ≤ t.earned := by
  unfold PointsTransaction.earned
  split
  · exact h.earning ‹_›
  · exact le_refl 0

/-- How a change moves the counters of a user. -/
inductive Accrues (db db' : DB) (userId : Uuid) : Prop
  | still (hl : db'.ledgerOf userId = db.ledgerOf userId)
      (hlife : db'.lifetimeOf userId = db.lifetimeOf userId)
      (hyear : db'.yearPointsOf userId = db.yearPointsOf userId ∨ db'.yearPointsOf userId = 0)
  | posted {t : PointsTransaction} (hl : db'.ledgerOf userId = db.ledgerOf userId ++ [t])
      (ht : t.Signed) (hlife : db'.lifetimeOf userId = db.lifetimeOf userId + t.earned)
      (hyear : db'.yearPointsOf userId ≤ db.yearPointsOf userId + t.earned)

section accrues
variable {db db' : DB} {u : Uuid}

theorem accrues_same (hl : db'.ledgerOf u = db.ledgerOf u)
    (hp : db'.profileOrDefault u = db.profileOrDefault u) : Accrues db db' u :=
  .still hl (by unfold DB.lifetimeOf; rw [hp]) (.inl (by unfold DB.yearPointsOf; rw [hp]))

/-- One profile version that keeps the lifetime points: `x` is `db` before it, `db'` differs from the
    result in other tables only. -/
theorem accrues_kept {x : DB} {v : Uuid} {p q : LoyaltyProfile}
    (hx : ∀ w, x.profileOrDefault w = db.profileOrDefault w) (hp : x.profiles v = some p)
    (hlife : q.lifetimePoints = p.lifetimePoints)
    (hyear : q.yearPoints = p.yearPoints ∨ q.yearPoints = 0)
    (hprof : db'.profiles = (x.apply (.updateProfile v q)).profiles)
    (hled : ∀ w, db'.ledgerOf w = db.ledgerOf w) : Accrues db db' u := by
  have hq := (profileOrDefault_congr (congrFun hprof u)).trans (profileOrDefault_update q hp)
  by_cases h : u = v
  · subst h
    rw [if_pos rfl] at hq
    have hold : db.profileOrDefault u = p := by rw [← hx, profileOrDefault_of hp]
    refine .still (hled u) ?_ ?_
    · unfold DB.lifetimeOf; rw [hq, hold, hlife]
    · unfold DB.yearPointsOf; rw [hq, hold]; exact hyear
  · rw [if_neg h, hx] at hq
    exact accrues_same (hled u) hq

/-- One profile version and one ledger row that agree: `x` is `db` before them, `db'` differs from
    the result in other tables only. -/
theorem accrues_post {x : DB} {v : Uuid} {p q : LoyaltyProfile} {t : PointsTransaction}
    (hx : ∀ w, x.profileOrDefault w = db.profileOrDefault w) (hp : x.profiles v = some p)
    (hv : t.userId = v) (ht : t.Signed) (hlife : q.lifetimePoints = p.lifetimePoints + t.earned)
    (hyear : q.yearPoints ≤ p.yearPoints + t.earned)
    (hprof : db'.profiles = (x.apply (.updateProfile v q)).profiles)
    (hled : db'.pointsTransactions = db.pointsTransactions ++ [t]) : Accrues db db' u := by
  have hq := (profileOrDefault_congr (congrFun hprof u)).trans (profileOrDefault_update q hp)
  have hl : db'.ledgerOf u = db.ledgerOf u ++ if t.userId = u then [t] else [] := by
    unfold DB.ledgerOf
    rw [hled, List.filter_append]
    by_cases h : t.userId = u <;> simp [h]
  by_cases h : u = v
  · subst h
    rw [if_pos rfl] at hq
    rw [if_pos hv] at hl
    have hold : db.profileOrDefault u = p := by rw [← hx, profileOrDefault_of hp]
    refine .posted hl ht ?_ ?_
    · unfold DB.lifetimeOf; rw [hq, hold, hlife]
    · unfold DB.yearPointsOf; rw [hq, hold]; exact hyear
  · rw [if_neg h, hx] at hq
    rw [if_neg (by rw [hv]; exact Ne.symm h), List.append_nil] at hl
    exact accrues_same hl hq

theorem purchased_accrues {msg : TicketPurchasedDto} {n : ℤ} {now : Instant}
    {rows : List (String × AchievementAction × Json)} :
    Accrues db ((db.purchased msg n now).withIntents msg.userId.value rows) u := by
  generalize hp : db.profileOrDefault msg.userId.value = p
  by_cases hn : n > 0
  · have hearn : (resolveTransactionType msg.eventType).isEarning = true := by
      cases msg.eventType <;> rfl
    have hpaid : (db.numbered (msg.earnedRow n (p.balance + n) now)).earned = n := by
      unfold PointsTransaction.earned
      rw [numbered_type]
      exact if_pos hearn
    refine accrues_post (v := msg.userId.value) (x := db.ensureProfile msg.userId.value) (p := p)
      (q := p.purchase n (p.purchaseTier n) now p) (t := db.numbered (msg.earnedRow n (p.balance + n) now))
      (fun _ => profileOrDefault_ensure _) (by simp [hp]) rfl ⟨?_, ?_, ?_⟩ ?_ ?_ ?_ ?_
    · intro _; exact le_of_lt hn
    · intro _; rfl
    · intro h; rw [numbered_type] at h; exact absurd (h ▸ hearn) (by decide)
    · rw [hpaid]; simp [LoyaltyProfile.purchase, hn]
    · rw [hpaid]; simp [LoyaltyProfile.purchase, hn]
    · simp [DB.purchased, DB.credited, hn, hp, DB.post]
    · simp [DB.purchased, DB.credited, hn, hp, DB.post, DB.numbered]
  · refine accrues_kept (v := msg.userId.value) (x := db.ensureProfile msg.userId.value) (p := p)
      (q := p.purchase n (p.purchaseTier n) now p) (fun _ => profileOrDefault_ensure _)
      (by simp [hp]) ?_ (.inl ?_) ?_ ?_
    · simp [LoyaltyProfile.purchase, hn]
    · simp [LoyaltyProfile.purchase, hn]
    · simp [DB.purchased, DB.credited, hn, hp]
    · intro w; simp [DB.purchased, DB.credited, hn]

theorem birthdayGranted_accrues {userId : UuidText} {p : LoyaltyProfile} {now : Instant}
    (hp : db.profiles userId.value = some p) : Accrues db (db.birthdayGranted userId p now) u := by
  refine accrues_post (v := userId.value) (x := db) (p := p)
    (t := db.numbered (birthdayRow userId (p.balance + LOYALTY_RULES.BIRTHDAY_BONUS_POINTS) now))
    (q := p.birthdayGrant p.birthdayTier now) (fun _ => rfl) hp rfl ⟨?_, ?_, ?_⟩ rfl (le_refl _) ?_ ?_
  · intro _; exact (by decide : (0 : ℤ) ≤ LOYALTY_RULES.BIRTHDAY_BONUS_POINTS)
  · intro h; cases h
  · intro h; cases h
  · simp [DB.birthdayGranted]
  · simp [DB.birthdayGranted, DB.numbered]

theorem adjusted_accrues {userId : UuidText} {adminId reason : String} {points : ℤ} {now : Instant} :
    Accrues db (db.adjusted userId adminId points reason now) u := by
  generalize hp : db.profileOrDefault userId.value = p
  have htype : (adjustmentRow userId adminId points reason (p.balance + points) now).type =
      if points > 0 then .ADMIN_ADDITION else .ADMIN_DEDUCTION := rfl
  have hpaid : (db.numbered (adjustmentRow userId adminId points reason (p.balance + points) now)).earned =
      if points > 0 then points else 0 := by
    unfold PointsTransaction.earned
    rw [numbered_type, htype]
    by_cases h : points > 0 <;> simp [h, PointsTransactionType.isEarning, adjustmentRow]
  refine accrues_post (v := userId.value) (x := db.ensureProfile userId.value) (p := p)
    (t := db.numbered (adjustmentRow userId adminId points reason (p.balance + points) now))
    (q := p.adjust points (p.adjustTier points) now) (fun _ => profileOrDefault_ensure _)
    (by simp [hp]) rfl ⟨?_, ?_, ?_⟩ ?_ ?_ ?_ ?_
  · intro h
    rw [numbered_type, htype] at h
    by_cases hpos : points > 0
    · exact le_of_lt hpos
    · rw [if_neg hpos] at h; cases h
  · intro h
    rw [numbered_type, htype] at h
    by_cases hpos : points > 0 <;> simp [hpos, PointsTransactionType.isCheckout] at h
  · intro h _
    rw [numbered_type, htype] at h
    by_cases hpos : points > 0
    · rw [if_pos hpos] at h; cases h
    · exact not_lt.1 hpos
  · rw [hpaid]
    unfold LoyaltyProfile.adjust
    by_cases h : points > 0 <;> simp [h]
  · rw [hpaid]
    unfold LoyaltyProfile.adjust
    by_cases h : points > 0 <;> simp [h]
  · simp [DB.adjusted, hp, DB.post]
  · simp [DB.adjusted, hp, DB.post, DB.numbered]

theorem vipGranted_accrues {userId : UuidText} {adminId reason : String} {now : Instant} :
    Accrues db (db.vipGranted userId adminId reason now) u := by
  generalize hp : db.profileOrDefault userId.value = p
  have hpaid : (db.numbered (vipRow userId adminId reason p.balance now)).earned = 0 := rfl
  refine accrues_post (v := userId.value) (x := db.ensureProfile userId.value) (p := p)
    (t := db.numbered (vipRow userId adminId reason p.balance now)) (q := { p with tier := .GOLD })
    (fun _ => profileOrDefault_ensure _) (by simp [hp]) rfl ⟨?_, ?_, ?_⟩ ?_ ?_ ?_ ?_
  · intro _; exact le_refl 0
  · intro h; cases h
  · intro h; cases h
  · rw [hpaid, add_zero]
  · rw [hpaid, add_zero]
  · simp [DB.vipGranted, hp, DB.post]
  · simp [DB.vipGranted, hp, DB.post, DB.numbered]

theorem progressed_accrues {eventId : String} {userId : Uuid} {achievement : Achievement}
    {targetCount : ℤ} {now : Instant}
    (h : ProgressOutcome db eventId userId achievement targetCount now db') : Accrues db db' u := by
  cases h with
  | duplicate _ _ => exact accrues_same (by simp) (by simp)
  | swallowed _ _ _ => exact accrues_same (by simp [DB.marked]) (by simp [DB.marked])
  | advanced _ _ _ => exact accrues_same (by simp [DB.marked]) (by simp [DB.marked])
  | unlocked _ _ _ _ =>
    exact accrues_same (by simp [DB.marked, DB.unlocked]) (by simp [DB.marked, DB.unlocked])
  | @rewarded n _ _ _ hr =>
    generalize hp : db.profileOrDefault userId = p
    refine accrues_post (v := userId) (p := p)
      (q := { p with
        balance := p.balance + achievement.rewardPoints
        lifetimePoints := p.lifetimePoints + achievement.rewardPoints })
      (x := (db.marked userId (uniqueProcessId eventId achievement)).unlocked userId achievement.id
        (advancedRow (db.userAchievements (userId, achievement.id)) targetCount n) now)
      (t := db.numbered (rewardRow userId achievement (p.balance + achievement.rewardPoints) now))
      (fun w => by simp [DB.unlocked, DB.marked]) (by simp [DB.unlocked, DB.marked, hp]) rfl
      ⟨?_, ?_, ?_⟩ rfl ?_ ?_ ?_
    · intro _; exact le_of_lt hr
    · intro h; cases h
    · intro h; cases h
    · exact le_add_of_nonneg_right (le_of_lt hr)
    · simp [DB.rewarded, DB.post]
    · simp [DB.rewarded, DB.post, DB.numbered, DB.unlocked, DB.marked]

/-- Every change moves the counters of every user with the ledger. -/
theorem change_accrues {allowed : Call → Prop} (h : Change allowed db db') : Accrues db db' u := by
  cases h with
  | ensured v => exact accrues_same (by simp) (by simp)
  | @deducted command p orderId now _ _ _ hp _ _ =>
    refine accrues_post (v := command.userId) (p := p)
      (q := { p with balance := p.balance - command.amount, lastActivityAt := some now })
      (x := db.apply (.event (command.record (p.balance - command.amount))))
      (t := command.debitRow (db.ledgerOf command.userId).length (p.balance - command.amount) orderId now)
      (fun _ => by simp) (by simpa using hp) rfl ⟨?_, ?_, ?_⟩ (add_zero _).symm (add_zero _).ge
      (by simp [DB.deducted]) (by simp [DB.deducted])
    · intro h; cases h
    · intro _; rfl
    · intro _ h; cases h
  | @refunded command p debit orderId now _ _ _ hp _ _ _ _ =>
    refine accrues_post (v := command.userId) (p := p)
      (q := { p with balance := p.balance - debit.points })
      (x := db.apply (.event (command.record (p.balance - debit.points))))
      (t := command.refundRow (db.ledgerOf command.userId).length (p.balance - debit.points) orderId now)
      (fun _ => by simp) (by simpa using hp) rfl ⟨?_, ?_, ?_⟩ (add_zero _).symm (add_zero _).ge
      (by simp [DB.refunded]) (by simp [DB.refunded])
    · intro h; cases h
    · intro _; rfl
    · intro _ h; cases h
  | purchased _ _ _ _ => exact purchased_accrues
  | birthdaySet userId d =>
    exact accrues_kept (x := db.ensureProfile userId.value) (p := db.profileOrDefault userId.value)
      (q := { db.profileOrDefault userId.value with birthdayDate := some d })
      (fun _ => profileOrDefault_ensure _) (ensureProfile_self _) rfl (.inl rfl) rfl
      (fun _ => by simp [DB.birthdaySet])
  | birthdayGranted _ hp _ => exact birthdayGranted_accrues hp
  | adjusted _ _ => exact adjusted_accrues
  | vipGranted _ => exact vipGranted_accrues
  | @expired v p now hp hpos =>
    refine accrues_post (v := v) (p := p) (q := { p with balance := 0 }) (x := db)
      (t := db.numbered (expireRow v p.balance now)) (fun _ => rfl) hp rfl ⟨?_, ?_, ?_⟩
      (add_zero _).symm (add_zero _).ge (by simp [DB.post]) (by simp [DB.post, DB.numbered])
    · intro h; cases h
    · intro h; cases h
    · intro _ _; simp only [numbered_points, expireRow]; omega
  | @annualReset v p hp =>
    exact accrues_kept (x := db) (p := p) (q := { p with yearPoints := 0, yearVisits := 0 })
      (fun _ => rfl) hp rfl (.inr rfl) rfl (fun _ => by simp)
  | @mirrored v p month hp =>
    exact accrues_kept (x := db) (p := p) (q := { p with goldUpgradeUsedMonth := month })
      (fun _ => rfl) hp rfl (.inl rfl) rfl (fun _ => by simp)
  | reserved r => exact accrues_same (by simp) (by simp)
  | released _ _ _ => exact accrues_same (by simp) (by simp)
  | progressed _ h => exact progressed_accrues h
  | defined _ => exact accrues_same rfl rfl

end accrues

/-! ### Over runs -/

/-- The counters of a user agree with the ledger. -/
structure Counted (db : DB) (userId : Uuid) : Prop where
  lifetime : db.lifetimeOf userId = total PointsTransaction.earned (db.ledgerOf userId)
  signed : ∀ t ∈ db.ledgerOf userId, t.Signed
  year : db.yearPointsOf userId ≤ db.lifetimeOf userId

theorem Counted.lifetime_nonneg {db : DB} {u : Uuid} (h : Counted db u) : 0 ≤ db.lifetimeOf u := by
  rw [h.lifetime]
  exact total_nonneg fun t ht => (h.signed t ht).earned_nonneg

theorem counted_step {db db' : DB} {u : Uuid} (h : Counted db u) (ha : Accrues db db' u) :
    Counted db' u := by
  cases ha with
  | still hl hlife hyear =>
    refine ⟨by rw [hlife, hl, h.lifetime], by rw [hl]; exact h.signed, ?_⟩
    rcases hyear with hyear | hyear <;> rw [hyear, hlife]
    · exact h.year
    · exact h.lifetime_nonneg
  | @posted t hl ht hlife hyear =>
    refine ⟨?_, ?_, ?_⟩
    · rw [hlife, hl, total_append, h.lifetime]
      simp
    · intro q hq
      rw [hl] at hq
      rcases List.mem_append.1 hq with hq | hq
      · exact h.signed q hq
      · rw [List.mem_singleton.1 hq]; exact ht
    · rw [hlife]
      have := h.year
      omega

theorem run_counted (ops : List Op) (u : Uuid) : Counted (DB.empty.runOps ops) u :=
  run_invariant (I := fun db => Counted db u) (fun _ _ hI hc => counted_step hI (change_accrues hc)) ops
    ⟨rfl, fun _ ht => (List.not_mem_nil ht).elim, le_refl _⟩

/-- No run lowers the lifetime points. -/
theorem run_lifetime_le (ops : List Op) {db : DB} {u : Uuid} :
    db.lifetimeOf u ≤ (db.runOps ops).lifetimeOf u := by
  refine run_invariant (I := fun x => db.lifetimeOf u ≤ x.lifetimeOf u) (fun x x' hI hc => ?_) ops
    (le_refl _)
  cases change_accrues (u := u) hc with
  | still _ hlife _ => rw [hlife]; exact hI
  | posted _ ht hlife _ =>
    have := ht.earned_nonneg
    omega

/-- The debits and refunds of a user never add up to more than nothing. -/
theorem checkout_nonpos {db : DB} {u : Uuid} (hc : Compensated db) (hs : ∀ t ∈ db.ledgerOf u, t.Signed) :
    pointsOf ((db.ledgerOf u).filter (·.type.isCheckout)) ≤ 0 := by
  refine total_nonpos_of_groups (·.orderId) _ fun k => ?_
  rw [List.filter_filter]
  cases k with
  | none =>
    rw [List.filter_eq_nil_iff.2 fun t ht => ?_]
    · exact le_refl 0
    · have := (hs t ht).checkout
      cases h : t.type.isCheckout <;> cases ho : t.orderId <;> simp_all
  | some o =>
    refine le_trans (le_of_eq ?_) (hc.net u o)
    -- the rows of an order are its debits and its refunds, which no row is both of
    unfold DB.orderNet
    rw [total_split (fun t => decide (t.type = .BURN_DISCOUNT)), List.filter_filter, List.filter_filter]
    congr 2 <;> refine List.filter_congr fun t _ => ?_ <;> cases ht : t.type <;>
      simp [isBurnOf, isRefundOf, PointsTransactionType.isCheckout, ht]

theorem total_earned (rows : List PointsTransaction) :
    total PointsTransaction.earned rows = pointsOf (rows.filter (·.type.isEarning)) := by
  induction rows with
  | nil => rfl
  | cons t rows ih =>
    rw [total_cons, ih]
    by_cases ht : t.type.isEarning = true <;> simp [PointsTransaction.earned, pointsOf, ht]

/-- What is not earned takes points away, all in all. -/
theorem balance_le_lifetime {db : DB} {u : Uuid} (hb : db.Balanced u) (hc : Compensated db)
    (hcounted : Counted db u) : db.balanceOf u ≤ db.lifetimeOf u := by
  have hrest : total PointsTransaction.points
      (((db.ledgerOf u).filter (!·.type.isEarning)).filter (!·.type.isCheckout)) ≤ 0 := by
    refine total_nonpos fun t ht => ?_
    simp only [List.mem_filter, Bool.not_eq_true'] at ht
    exact (hcounted.signed t ht.1.1).spending ht.1.2 ht.2
  have hcheckout : total PointsTransaction.points
      (((db.ledgerOf u).filter (!·.type.isEarning)).filter (·.type.isCheckout)) ≤ 0 := by
    refine le_trans (le_of_eq ?_) (checkout_nonpos hc hcounted.signed)
    rw [List.filter_filter]
    refine congrArg pointsOf (List.filter_congr fun t _ => ?_)
    cases t.type <;> rfl
  have hsplit : total PointsTransaction.points _ = _ + _ :=
    total_split (·.type.isCheckout) ((db.ledgerOf u).filter (!·.type.isEarning))
  have hlife : db.lifetimeOf u = total PointsTransaction.points
      ((db.ledgerOf u).filter (·.type.isEarning)) := hcounted.lifetime.trans (total_earned _)
  have hbalance := hb.total.trans (total_split (·.type.isEarning) _)
  omega

/-- In every reachable state the lifetime points of a user are the sum of the earning rows, whatever
    follows does not lower them, and neither the balance nor the year's points exceed them. -/
theorem lifetime_counts_earnings (ops : List Op) (userId : Uuid) :
    (∀ p, (DB.empty.runOps ops).profiles userId = some p →
      p.lifetimePoints =
        pointsOf (((DB.empty.runOps ops).ledgerOf userId).filter (·.type.isEarning)) ∧
      p.balance ≤ p.lifetimePoints ∧ p.yearPoints ≤ p.lifetimePoints) ∧
    ∀ later, (DB.empty.runOps ops).lifetimeOf userId ≤
      (DB.empty.runOps (ops ++ later)).lifetimeOf userId := by
  have hcounted := run_counted ops userId
  have hstart : Compensated DB.empty := compensated_start rfl fun _ => rfl
  have hcompensated := run_compensated ops hstart
  refine ⟨fun p hp => ?_, fun later => ?_⟩
  · have hbalance := balance_le_lifetime (run_balanced ops userId) hcompensated hcounted
    have hyear := hcounted.year
    have hlife := hcounted.lifetime.trans (total_earned _)
    unfold DB.balanceOf DB.lifetimeOf at hbalance
    unfold DB.yearPointsOf DB.lifetimeOf at hyear
    unfold DB.lifetimeOf at hlife
    rw [profileOrDefault_of hp] at hbalance hyear hlife
    exact ⟨hlife, hbalance, hyear⟩
  · unfold DB.runOps
    rw [List.foldl_append]
    exact run_lifetime_le later

end CinemaLoyalty
