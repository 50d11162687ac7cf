import CinemaLoyalty.Books
import CinemaLoyalty.Lib.UpgradeChain
import CinemaLoyalty.Numbers

/-! @svc Tiers | layer:property | source:src/loyalty/loyalty.service.ts, src/loyalty/admin-loyalty.service.ts, src/loyalty/loyalty-calculator.service.ts

    A tier only rises, is never below what the counters call for, and every rise is announced. Every
    change moves the tier of each user together with the outbox (`change_promotes`), so the
    `TIER_UPGRADED` rows of a user form one chain up to the current tier. -/

namespace CinemaLoyalty
open UpgradeChain

/-- The tier of a user, BRONZE without a profile. -/
def DB.tierOf (db : DB) (userId : Uuid) : Tier := (db.profileOrDefault userId).tier

/-- The tier the counters of a profile call for. -/
def LoyaltyProfile.metricsTier (p : LoyaltyProfile) : Tier :=
  calculateTierByMetrics p.yearVisits p.yearPoints

/-- The tiers an outbox row announces. -/
def OutboxEvent.oldTier (e : OutboxEvent) : Tier := e.payload.oldTier

def OutboxEvent.newTier (e : OutboxEvent) : Tier := e.payload.newTier

/-- How a change moves the tier of a user. -/
structure Promotes (db db' : DB) (userId : Uuid) : Prop where
  moves : Moves OutboxEvent.oldTier OutboxEvent.newTier (db.tierOf userId) (db.outboxOf userId)
    (db'.tierOf userId) (db'.outboxOf userId)
  earned : (db.profileOrDefault userId).metricsTier ≤ db.tierOf userId →
    (db'.profileOrDefault userId).metricsTier ≤ db'.tierOf userId

section promotes
variable {db db' : DB} {u : Uuid}

/-- The tier and the counters it depends on. -/
structure SameRank (p q : LoyaltyProfile) : Prop where
  tier : q.tier = p.tier
  visits : q.yearVisits = p.yearVisits
  points : q.yearPoints = p.yearPoints

theorem promotes_still (hr : SameRank (db.profileOrDefault u) (db'.profileOrDefault u))
    (ho : db'.outboxOf u = db.outboxOf u) : Promotes db db' u := by
  have ht : db'.tierOf u = db.tierOf u := hr.tier
  refine ⟨?_, fun h => ?_⟩
  · rw [ht, ho]; exact .still
  · unfold LoyaltyProfile.metricsTier at h ⊢
    rw [hr.visits, hr.points, ht]
    exact h

/-- A change that touches no profile and no outbox row. -/
theorem promotes_unchanged (hp : ∀ v, db'.profileOrDefault v = db.profileOrDefault v)
    (ho : ∀ v, db'.outboxOf v = db.outboxOf v) : Promotes db db' u :=
  promotes_still (by rw [hp u]; exact ⟨rfl, rfl, rfl⟩) (ho u)

/-- One profile version that keeps the rank: `x` is `db` before it, `db'` differs from the result in
    other tables only. -/
theorem promotes_kept {x : DB} {v : Uuid} {p q : LoyaltyProfile}
    (hx : ∀ w, x.profileOrDefault w = db.profileOrDefault w) (hp : x.profiles v = some p)
    (hq : SameRank p q) (hprof : db'.profiles = (x.apply (.updateProfile v q)).profiles)
    (ho : ∀ w, db'.outboxOf w = db.outboxOf w) : Promotes db db' u := by
  refine promotes_still ?_ (ho u)
  rw [profileOrDefault_congr (congrFun hprof u), profileOrDefault_update q hp, ← hx u]
  split
  · rename_i h
    rw [h, profileOrDefault_of hp]
    exact hq
  · exact ⟨rfl, rfl, rfl⟩

theorem announced_outboxOf {x : DB} {userId : UuidText} {oldTier newTier : Tier} {now : Instant}
    (w : Uuid) : (x.announced userId oldTier newTier now).outboxOf w =
      if newTier ≠ oldTier ∧ userId.value = w then
        x.outboxOf w ++ [{ tierUpgraded userId oldTier newTier now with
          seq := (x.outboxOf userId.value).length }]
      else x.outboxOf w := by
  unfold DB.announced
  by_cases h : newTier = oldTier
  · simp [h]
  · simp [h, tierUpgraded]

/-- One profile version with its announcement: the tier does not fall, and is at least what the new
    counters call for. -/
theorem promotes_announced (userId : UuidText) (now : Instant) {x : DB} {p q : LoyaltyProfile}
    (hx : ∀ w, x.profileOrDefault w = db.profileOrDefault w)
    (hp : x.profiles userId.value = some p) (hup : q.tier ≠ p.tier → p.tier < q.tier)
    (hearned : q.metricsTier ≤ q.tier)
    (hprof : db'.profiles = (x.apply (.updateProfile userId.value q)).profiles)
    (ho : ∀ w, db'.outboxOf w = (db.announced userId p.tier q.tier now).outboxOf w) :
    Promotes db db' u := by
  have hprofile : db'.profileOrDefault u =
      if u = userId.value then q else db.profileOrDefault u := by
    rw [profileOrDefault_congr (congrFun hprof u), profileOrDefault_update q hp, hx u]
  have hout := ho u
  rw [announced_outboxOf] at hout
  by_cases hu : u = userId.value
  · subst hu
    have hold : db.tierOf userId.value = p.tier := by
      unfold DB.tierOf; rw [← hx, profileOrDefault_of hp]
    rw [if_pos rfl] at hprofile
    have hnew : db'.tierOf userId.value = q.tier := by unfold DB.tierOf; rw [hprofile]
    refine ⟨?_, fun _ => by rw [hnew, hprofile]; exact hearned⟩
    rw [hold, hnew, hout]
    by_cases hsame : q.tier = p.tier
    · rw [if_neg (by simp [hsame]), hsame]
      exact .still
    · rw [if_pos ⟨hsame, rfl⟩]
      have hm : ∀ row : OutboxEvent, row.oldTier = p.tier → row.newTier = q.tier →
          Moves OutboxEvent.oldTier OutboxEvent.newTier p.tier (db.outboxOf userId.value) q.tier
            (db.outboxOf userId.value ++ [row]) :=
        fun row hold hnew => hnew ▸ .upgraded hold (hnew ▸ hup hsame)
      exact hm _ rfl rfl
  · rw [if_neg hu] at hprofile
    rw [if_neg (by rintro ⟨-, h⟩; exact hu h.symm)] at hout
    exact promotes_still (by rw [hprofile]; exact ⟨rfl, rfl, rfl⟩) hout

/-- The multiplier is never negative, so no purchase earns negative points. -/
theorem resolveMultiplier_nonneg (p : LoyaltyProfile) (e : EventType) (now : Instant) :
    0 ≤ resolveMultiplier p e now := by
  have ht : 0 ≤ LOYALTY_RULES.TIER_MULTIPLIERS p.tier := by
    cases p.tier <;> norm_num [LOYALTY_RULES.TIER_MULTIPLIERS]
  have hb : 0 ≤ LOYALTY_RULES.BIRTHDAY_MULTIPLIERS p.tier := by
    cases p.tier <;> norm_num [LOYALTY_RULES.BIRTHDAY_MULTIPLIERS]
  have hs : 0 ≤ LOYALTY_RULES.SPECIAL_EVENT_MULTIPLIER := by
    norm_num [LOYALTY_RULES.SPECIAL_EVENT_MULTIPLIER]
  unfold resolveMultiplier
  simp only
  split <;> split <;> positivity

theorem amountToReward_nonneg (msg : TicketPurchasedDto) : 0 ≤ msg.amountToReward := by
  unfold TicketPurchasedDto.amountToReward
  cases h : msg.paidAmount.get? with
  | none => exact msg.total_nonneg
  | some a => exact msg.paid_nonneg a h

theorem floorProduct_nonneg {amount multiplier : ℚ} (ha : 0 ≤ amount) (hm : 0 ≤ multiplier) :
    0 ≤ floorProduct amount multiplier := by
  unfold floorProduct
  split
  · rename_i product hproduct
    exact Int.floor_nonneg.2 (ofRat_nonneg (mul_nonneg ha hm) hproduct)
  · exact pow_nonneg (by decide) 1024

theorem pointsEarnedFor_nonneg (msg : TicketPurchasedDto) (p : LoyaltyProfile) (used : ℤ)
    (now : Instant) : 0 ≤ pointsEarnedFor msg p used now := by
  unfold pointsEarnedFor
  split
  · exact le_refl 0
  · exact floorProduct_nonneg (amountToReward_nonneg msg) (resolveMultiplier_nonneg _ _ _)

/-- The counters after a purchase are the ones its tier was resolved from. -/
theorem purchase_metrics (p : LoyaltyProfile) {n : ℤ} (hn : 0 ≤ n) (now : Instant) :
    (p.purchase n (p.purchaseTier n) now p).metricsTier ≤
      (p.purchase n (p.purchaseTier n) now p).tier := by
  have htier : (p.purchase n (p.purchaseTier n) now p).tier = p.purchaseTier n := by
    unfold LoyaltyProfile.purchase; simp only; split <;> rfl
  have hvisits : (p.purchase n (p.purchaseTier n) now p).yearVisits = p.yearVisits + 1 := by
    unfold LoyaltyProfile.purchase; simp only; split <;> rfl
  have hpoints : (p.purchase n (p.purchaseTier n) now p).yearPoints = p.yearPoints + n := by
    unfold LoyaltyProfile.purchase
    simp only
    split
    · rfl
    · simp only; omega
  unfold LoyaltyProfile.metricsTier
  rw [htier, hvisits, hpoints]
  exact calculateTier_le_resolveNewTier _ _ _

theorem purchased_promotes {msg : TicketPurchasedDto} {n : ℤ} {now : Instant}
    {rows : List (String × AchievementAction × Json)} (hn : 0 ≤ n) :
    Promotes db ((db.purchased msg n now).withIntents msg.userId.value rows) u := by
  generalize hp : db.profileOrDefault msg.userId.value = p
  have htier : (p.purchase n (p.purchaseTier n) now p).tier = p.purchaseTier n := by
    unfold LoyaltyProfile.purchase; simp only; split <;> rfl
  refine promotes_announced msg.userId now (x := db.ensureProfile msg.userId.value) (p := p)
    (q := p.purchase n (p.purchaseTier n) now p)
    (fun w => profileOrDefault_ensure _) (by simp [hp]) ?_ (purchase_metrics p hn now) ?_ ?_
  · rw [htier]; exact lt_resolveNewTier
  · by_cases hpos : n > 0 <;> simp [DB.purchased, DB.credited, hpos, hp, DB.post]
  · intro w
    rw [htier, withIntents_outboxOf]
    simp only [DB.purchased, hp, announced_outboxOf]
    by_cases hpos : n > 0 <;> simp [DB.credited, hpos, hp, DB.post]

theorem birthdayGranted_promotes {userId : UuidText} {p : LoyaltyProfile} {now : Instant}
    (hp : db.profiles userId.value = some p) : Promotes db (db.birthdayGranted userId p now) u := by
  refine promotes_announced userId now (x := db) (p := p) (q := p.birthdayGrant p.birthdayTier now)
    (fun _ => rfl) hp lt_resolveNewTier (calculateTier_le_resolveNewTier _ _ _) ?_ ?_
  · simp [DB.birthdayGranted]
  · intro w
    rw [show (p.birthdayGrant p.birthdayTier now).tier = p.birthdayTier from rfl]
    simp only [DB.birthdayGranted, announced_outboxOf]
    simp

theorem adjusted_promotes {userId : UuidText} {adminId reason : String} {points : ℤ} {now : Instant} :
    Promotes db (db.adjusted userId adminId points reason now) u := by
  generalize hp : db.profileOrDefault userId.value = p
  have htier : (p.adjust points (p.adjustTier points) now).tier = p.adjustTier points := by
    unfold LoyaltyProfile.adjust; simp only; split <;> rfl
  refine promotes_announced userId now (x := db.ensureProfile userId.value) (p := p)
    (q := p.adjust points (p.adjustTier points) now)
    (fun w => profileOrDefault_ensure _) (by simp [hp]) ?_ ?_ ?_ ?_
  · rw [htier]; exact lt_resolveNewTier
  · unfold LoyaltyProfile.metricsTier
    rw [htier]
    refine le_trans (le_of_eq ?_) (calculateTier_le_resolveNewTier _ _ _)
    unfold LoyaltyProfile.adjust
    simp only
    split <;> rfl
  · simp [DB.adjusted, hp, DB.post]
  · intro w
    rw [htier]
    simp only [DB.adjusted, hp, announced_outboxOf]
    simp [DB.post]

theorem vipGranted_promotes {userId : UuidText} {adminId reason : String} {now : Instant} :
    Promotes db (db.vipGranted userId adminId reason now) u := by
  generalize hp : db.profileOrDefault userId.value = p
  refine promotes_announced userId now (x := db.ensureProfile userId.value) (p := p)
    (q := { p with tier := .GOLD }) (fun w => profileOrDefault_ensure _) (by simp [hp])
    (fun h => lt_gold (Ne.symm h)) (le_gold _) ?_ ?_
  · simp [DB.vipGranted, hp, DB.post]
  · intro w
    simp only [DB.vipGranted, hp, announced_outboxOf]
    simp [DB.post]

theorem progressed_promotes {eventId : String} {userId : Uuid} {achievement : Achievement}
    {targetCount : ℤ} {now : Instant}
    (h : ProgressOutcome db eventId userId achievement targetCount now db') : Promotes db db' u := by
  cases h with
  | duplicate _ _ => exact promotes_unchanged (fun _ => by simp) (fun _ => by simp)
  | swallowed _ _ _ =>
    exact promotes_unchanged (fun _ => by simp [DB.marked]) (fun _ => by simp [DB.marked])
  | advanced _ _ _ =>
    exact promotes_unchanged (fun _ => by simp [DB.marked]) (fun _ => by simp [DB.marked])
  | unlocked _ _ _ _ =>
    exact promotes_unchanged (fun _ => by simp [DB.marked, DB.unlocked])
      (fun _ => by simp [DB.marked, DB.unlocked])
  | @rewarded n _ _ _ _ =>
    exact promotes_kept (v := userId) (p := db.profileOrDefault userId)
      (q := { db.profileOrDefault userId with
        balance := (db.profileOrDefault userId).balance + achievement.rewardPoints
        lifetimePoints := (db.profileOrDefault userId).lifetimePoints + achievement.rewardPoints })
      (x := (db.marked userId (uniqueProcessId eventId achievement)).unlocked userId achievement.id
        (advancedRow (db.userAchievements (userId, achievement.id)) targetCount n) now)
      (fun w => by simp [DB.unlocked, DB.marked]) (by simp [DB.unlocked, DB.marked])
      ⟨rfl, rfl, rfl⟩ (by simp [DB.rewarded, DB.post])
      (fun _ => by simp [DB.rewarded, DB.post, DB.unlocked, DB.marked])

/-- A reset keeps the tier and lowers the counters, which then call for BRONZE. -/
theorem annualReset_promotes {v : Uuid} {p : LoyaltyProfile} (hp : db.profiles v = some p) :
    Promotes db (db.apply (.updateProfile v { p with yearPoints := 0, yearVisits := 0 })) u := by
  have hprofile := profileOrDefault_update (u := u) { p with yearPoints := 0, yearVisits := 0 } hp
  have ht : (db.apply (.updateProfile v { p with yearPoints := 0, yearVisits := 0 })).tierOf u =
      db.tierOf u := by
    unfold DB.tierOf
    rw [hprofile]
    split
    · rename_i h
      rw [h, profileOrDefault_of hp]
    · rfl
  refine ⟨?_, fun h => ?_⟩
  · rw [ht, outboxOf_other (by simp)]
    exact .still
  · rw [ht, hprofile]
    split
    · exact bronze_le _
    · exact h

/-- Every change moves the tier of every user with its announcement. -/
theorem change_promotes {allowed : Call → Prop} (h : Change allowed db db') :
    Promotes db db' u := by
  cases h with
  | ensured v => exact promotes_unchanged (fun _ => by simp) (fun _ => by simp)
  | @deducted command p orderId now _ _ _ hp _ _ =>
    exact promotes_kept (v := command.userId) (p := p)
      (q := { p with balance := p.balance - command.amount, lastActivityAt := some now })
      (x := db.apply (.event (command.record (p.balance - command.amount))))
      (fun _ => by simp) (by simpa using hp) ⟨rfl, rfl, rfl⟩ (by simp [DB.deducted])
      (fun _ => by simp [DB.deducted])
  | @refunded command p debit orderId now _ _ _ hp _ _ _ _ =>
    exact promotes_kept (v := command.userId) (p := p)
      (q := { p with balance := p.balance - debit.points })
      (x := db.apply (.event (command.record (p.balance - debit.points))))
      (fun _ => by simp) (by simpa using hp) ⟨rfl, rfl, rfl⟩ (by simp [DB.refunded])
      (fun _ => by simp [DB.refunded])
  | purchased _ he _ _ => exact purchased_promotes (he ▸ pointsEarnedFor_nonneg _ _ _ _)
  | birthdaySet userId d =>
    exact promotes_kept (x := db.ensureProfile userId.value) (p := db.profileOrDefault userId.value)
      (q := { db.profileOrDefault userId.value with birthdayDate := some d })
      (fun _ => profileOrDefault_ensure _) (ensureProfile_self _) ⟨rfl, rfl, rfl⟩ rfl
      (fun _ => by simp [DB.birthdaySet])
  | birthdayGranted _ hp _ => exact birthdayGranted_promotes hp
  | adjusted _ _ => exact adjusted_promotes
  | vipGranted _ => exact vipGranted_promotes
  | @expired v p now hp _ =>
    exact promotes_kept (p := p) (q := { p with balance := 0 }) (fun _ => rfl) hp ⟨rfl, rfl, rfl⟩
      (by simp [DB.post]) (fun _ => by simp [DB.post])
  | annualReset hp => exact annualReset_promotes hp
  | @mirrored v p month hp =>
    exact promotes_kept (p := p) (q := { p with goldUpgradeUsedMonth := month }) (fun _ => rfl) hp
      ⟨rfl, rfl, rfl⟩ rfl (fun _ => by simp)
  | reserved r =>
    exact promotes_unchanged (fun _ => by simp) (fun _ => by simp)
  | released _ _ _ =>
    exact promotes_unchanged (fun _ => by simp) (fun _ => by simp)
  | progressed _ h => exact progressed_promotes h
  | defined _ => exact promotes_unchanged (fun _ => rfl) (fun _ => rfl)

end promotes

/-! ### Over runs -/

/-- The tier of a user is announced up to now, and not below what the counters call for. -/
structure Ranked (db : DB) (start : Tier) (userId : Uuid) : Prop where
  chain : Chain OutboxEvent.oldTier OutboxEvent.newTier start (db.outboxOf userId)
    (db.tierOf userId)
  earned : (db.profileOrDefault userId).metricsTier ≤ db.tierOf userId

theorem ranked_step {db db' : DB} {start : Tier} {u : Uuid} (h : Ranked db start u)
    (hp : Promotes db db' u) : Ranked db' start u :=
  ⟨chain_moves h.chain hp.moves, hp.earned h.earned⟩

theorem run_ranked (ops : List Op) (u : Uuid) : Ranked (DB.empty.runOps ops) .BRONZE u :=
  run_invariant (I := fun db => Ranked db .BRONZE u) (fun _ _ hI hc => ranked_step hI (change_promotes hc))
    ops ⟨rfl, bronze_le _⟩

/-- No run lowers a tier. -/
theorem run_tier_le (ops : List Op) (db : DB) (u : Uuid) : db.tierOf u ≤ (db.runOps ops).tierOf u :=
  run_invariant (I := fun x => db.tierOf u ≤ x.tierOf u)
    (fun _ _ hI hc => le_trans hI (moves_le (change_promotes hc).moves)) ops (le_refl _)

/-- After any sequence of operations from the empty database, whatever follows, a user's tier does
    not fall; it is at least what the year's counters call for; and the user's outbox rows form one
    chain of upgrades from BRONZE, the tier of a new profile, to the current tier. -/
theorem tiers_announced (ops : List Op) (userId : Uuid) :
    (∀ later, (DB.empty.runOps ops).tierOf userId ≤
      (DB.empty.runOps (ops ++ later)).tierOf userId) ∧
    (∀ p, (DB.empty.runOps ops).profiles userId = some p →
      calculateTierByMetrics p.yearVisits p.yearPoints ≤ p.tier) ∧
    Chain OutboxEvent.oldTier OutboxEvent.newTier .BRONZE ((DB.empty.runOps ops).outboxOf userId)
      ((DB.empty.runOps ops).tierOf userId) := by
  have hrank := run_ranked ops userId
  refine ⟨fun later => ?_, fun p hp => ?_, hrank.chain⟩
  · unfold DB.runOps
    rw [List.foldl_append]
    exact run_tier_le later _ userId
  · have hearned := hrank.earned
    unfold DB.tierOf at hearned
    rw [profileOrDefault_of hp] at hearned
    exact hearned

end CinemaLoyalty
