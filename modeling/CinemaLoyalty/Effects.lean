import CinemaLoyalty.Service

/-! @svc Effects | layer:system | source:src/loyalty, src/achievements

    What each call commits, call by call: an `Effect` names the call and the database it leaves, with
    what the call checked before it. A property of one table is read off the calls that write it. -/

namespace CinemaLoyalty
open Txn

/-- What a committed call does to the database. -/
inductive Effect (now : Instant) (db : DB) : Call → DB → Prop
  | still (c : Call) : Effect now db c db
  | deducted {userId orderId key : String} {amount : ℤ} {command : PointCommand} {p : LoyaltyProfile}
      (hparse : parsePointCommand .DEDUCT userId amount orderId key = some command)
      (hk : db.processedEvents command.idempotencyKey = none)
      (hp : db.profiles command.userId = some p) :
      Effect now db (.deductPoints userId amount orderId key) (db.deducted command p orderId now)
  | refunded {userId orderId key : String} {amount : ℤ} {command : PointCommand} {p : LoyaltyProfile}
      {debit : PointsTransaction}
      (hparse : parsePointCommand .REFUND userId amount orderId key = some command)
      (hk : db.processedEvents command.idempotencyKey = none)
      (hp : db.profiles command.userId = some p) :
      Effect now db (.refundPoints userId amount orderId key) (db.refunded command p debit orderId now)
  | purchaseSeen {msg : TicketPurchasedDto} {e : ProcessedEvent}
      (hb : db.processedEvents msg.eventId.text = some e) (ho : e.operation = none) :
      Effect now db (.processTicketPurchase msg) (db.ensureProfile msg.userId.value)
  | purchased {msg : TicketPurchasedDto} {pointsEarned : ℤ}
      {rows : List (String × AchievementAction × Json)}
      (hn : db.processedEvents msg.eventId.text = none)
      (he : pointsEarned = pointsEarnedFor msg (db.profileOrDefault msg.userId.value)
        (db.pointsUsedFor msg) now)
      (hrows : intentRows (purchaseEvents msg (db.pointsUsedFor msg)) = .pure rows) :
      Effect now db (.processTicketPurchase msg)
        ((db.purchased msg pointsEarned now).withIntents msg.userId.value rows)
  | birthdaySet {newDate : String → Option Instant} {userId : UuidText} {text : String} {d : Instant}
      {res : BirthdayGrantResult} {db' : DB} (h : GrantOutcome (db.birthdaySet userId d) userId now res db') :
      Effect now db (.processUserDateOfBirthSet newDate userId text) db'
  | birthdayGranted {userId : UuidText} {res : BirthdayGrantResult} {db' : DB}
      (h : GrantOutcome db userId now res db') : Effect now db (.grantBirthdayBonusForUser userId) db'
  | adjusted {userId : UuidText} {adminId reason : String} {points : ℤ} :
      Effect now db (.modifyPointsGrpc userId adminId points reason)
        (db.adjusted userId adminId points reason now)
  | vipGranted {userId : UuidText} {adminId reason : String} :
      Effect now db (.grantVipStatusGrpc userId adminId reason)
        (db.vipGranted userId adminId reason now)
  | progressed {event : ActionEvent} {achievement : Achievement} {eventId : String} {userId : Uuid}
      {targetCount : ℤ} {db' : DB}
      (h : ProgressOutcome db eventId userId achievement targetCount now db') :
      Effect now db (.processAchievement event achievement) db'
  | expired {userId : Uuid} {p : LoyaltyProfile} (hp : db.profiles userId = some p) :
      Effect now db (.expirePoints userId)
        ((db.apply (.updateProfile userId { p with balance := 0 })).post
          (expireRow userId p.balance now))
  | annualReset {userId : Uuid} {p : LoyaltyProfile} (hp : db.profiles userId = some p) :
      Effect now db (.resetAnnualStats userId)
        (db.apply (.updateProfile userId { p with yearPoints := 0, yearVisits := 0 }))
  | goldReset {userId : Uuid} {p : LoyaltyProfile} (hp : db.profiles userId = some p)
      (hm : p.goldUpgradeUsedMonth.any (·.before (getUtcMonthKey now)) = true) :
      Effect now db (.goldReset userId)
        (db.apply (.updateProfile userId { p with goldUpgradeUsedMonth := none }))
  | reserved {userId orderId : UuidText} {p : LoyaltyProfile} (hp : db.profiles userId.value = some p)
      (hnew : db.ordered userId.value orderId.value = []) (hgold : p.tier = .GOLD)
      (hfree : db.occupied userId.value (getUtcMonthKey now) = [])
      (hmirror : p.goldUpgradeUsedMonth ≠ some (getUtcMonthKey now)) :
      Effect now db (.useGoldUpgrade userId orderId) (db.reserved userId orderId p now)
  | rolledBack {userId orderId : UuidText} {p : LoyaltyProfile} {r : GoldUpgradeReservation}
      (hp : db.profiles userId.value = some p)
      (hr : (db.ordered userId.value orderId.value).head? = some r) (hopen : r.releasedAt = none) :
      Effect now db (.rollbackGoldUpgrade userId orderId) (db.rolledBack userId orderId p r now)

theorem tx_effect {c : Call} {now : Instant} {db db' : DB} {a : Answer}
    (h : db.run (c.tx now) = .ok (a, db')) : Effect now db c db' := by
  cases c with
  | deductPoints userId amount orderId key =>
    obtain ⟨r, h, -⟩ := run_wrap h
    unfold deductPoints at h
    split at h
    · cases h; exact .still _
    · rename_i command hparse
      cases deductPointsTx_ok h with
      | replayed _ _ => exact .still _
      | refused _ => exact .still _
      | effective hk he =>
        obtain ⟨p, hp, -, -, -, rfl⟩ := he
        exact .deducted hparse hk hp
  | refundPoints userId amount orderId key =>
    obtain ⟨r, h, -⟩ := run_wrap h
    unfold refundPoints at h
    split at h
    · cases h; exact .still _
    · rename_i command hparse
      cases refundPointsTx_ok h with
      | replayed _ _ => exact .still _
      | refused _ => exact .still _
      | effective hk he =>
        obtain ⟨p, debit, hp, -, -, -, -, -, rfl⟩ := he
        exact .refunded hparse hk hp
  | processTicketPurchase msg =>
    obtain ⟨r, h, -⟩ := run_wrap h
    cases processTicketPurchase_ok h with
    | duplicate hb ho => exact .purchaseSeen hb ho
    | processed hn he _ hrows => exact .purchased hn he hrows
  | processUserDateOfBirthSet newDate userId dateOfBirth =>
    obtain ⟨r, h, -⟩ := run_wrap h
    obtain ⟨d, -, hg⟩ := processUserDateOfBirthSet_ok h
    exact .birthdaySet hg
  | grantBirthdayBonusForUser userId =>
    obtain ⟨r, h, -⟩ := run_wrap h
    exact .birthdayGranted (grantBirthdayBonusForUser_ok h)
  | modifyPointsGrpc userId adminId points reason =>
    obtain ⟨r, h, -⟩ := run_wrap h
    obtain ⟨-, -, rfl⟩ := modifyPointsGrpc_ok h
    exact .adjusted
  | grantVipStatusGrpc userId adminId reason =>
    obtain ⟨r, h, -⟩ := run_wrap h
    obtain ⟨-, rfl⟩ := grantVipStatusGrpc_ok h
    exact .vipGranted
  | processAchievement event achievement =>
    obtain ⟨r, h, -⟩ := run_wrap h
    rcases processAchievementJob_ok h with rfl | ⟨_, _, _, h⟩
    · exact .still _
    · exact .progressed h
  | expirePoints userId =>
    obtain ⟨r, h, -⟩ := run_wrap h
    rcases expirePointsStep_ok h with rfl | ⟨p, hp, -, -, rfl⟩
    · exact .still _
    · exact .expired hp
  | resetAnnualStats userId =>
    obtain ⟨r, h, -⟩ := run_wrap h
    rcases resetAnnualStatsStep_ok h with rfl | ⟨p, hp, rfl⟩
    · exact .still _
    · exact .annualReset hp
  | goldReset userId =>
    obtain ⟨r, h, -⟩ := run_wrap h
    rcases goldResetStep_ok h with rfl | ⟨p, hp, hm, rfl⟩
    · exact .still _
    · exact .goldReset hp hm
  | useGoldUpgrade userId orderId =>
    obtain ⟨r, h, -⟩ := run_wrap h
    cases useGoldUpgradeTx_use h with
    | replayed _ _ => exact .still _
    | released _ _ => exact .still _
    | refused _ _ _ => exact .still _
    | reserved hp hnew hgold hfree hmirror => exact .reserved hp hnew hgold hfree hmirror
  | rollbackGoldUpgrade userId orderId =>
    obtain ⟨r, h, -⟩ := run_wrap h
    cases rollbackGoldUpgradeTx_rollback h with
    | refused _ => exact .still _
    | replayed _ _ => exact .still _
    | released hp hr hopen => exact .rolledBack hp hr hopen

/-- A call that fails changes nothing. -/
theorem exec_effect (c : Call) (now : Instant) (db : DB) : Effect now db c (c.exec now db).2 := by
  rcases exec_cases c now db with ⟨e, -, he⟩ | ⟨a, db', hr, he⟩
  · rw [he]; exact .still c
  · rw [he]; exact tx_effect hr

/-! ### Profiles -/

section versions
variable {db db' x : DB} {u v : Uuid} {p q : LoyaltyProfile} {now : Instant}

theorem profileOrDefault_congr (h : db'.profiles u = db.profiles u) :
    db'.profileOrDefault u = db.profileOrDefault u := by
  unfold DB.profileOrDefault; rw [h]

@[simp] theorem profileOrDefault_other {w : Write} (h : ¬w.table = .profiles) :
    (db.apply w).profileOrDefault u = db.profileOrDefault u :=
  profileOrDefault_congr (by rw [profiles_other h])

@[simp] theorem profileOrDefault_ensure (v : Uuid) :
    (db.ensureProfile v).profileOrDefault u = db.profileOrDefault u := by
  unfold DB.profileOrDefault
  by_cases h : u = v
  · subst h; simp [DB.profileOrDefault]
  · simp [h]

/-- A profile found is the profile meant. -/
theorem profileOrDefault_of (hp : db.profiles u = some p) : db.profileOrDefault u = p := by
  simp [DB.profileOrDefault, hp]

/-- The profile of a user after a new version of some profile row. -/
theorem profileOrDefault_update (row : LoyaltyProfile) (hp : x.profiles v = some p) :
    (x.apply (.updateProfile v row)).profileOrDefault u =
      if u = v then row else x.profileOrDefault u := by
  unfold DB.profileOrDefault
  by_cases h : u = v
  · subst h; simp [hp]
  · simp [h]

/-- One new version of one profile: `x` is `db` before it, `db'` differs from the result in other
    tables only. -/
theorem profileOrDefault_version (hx : ∀ w, x.profileOrDefault w = db.profileOrDefault w)
    (hp : x.profiles v = some p) (hprof : db'.profiles = (x.apply (.updateProfile v q)).profiles) :
    db'.profileOrDefault u = if u = v then q else db.profileOrDefault u := by
  rw [profileOrDefault_congr (congrFun hprof u), profileOrDefault_update q hp, hx u]

/-- The versions a call can write over the profile `p` of user `u`. -/
inductive Version (now : Instant) (p : LoyaltyProfile) : Call → Uuid → LoyaltyProfile → Prop
  | still (c : Call) (u : Uuid) : Version now p c u p
  | deducted {userId orderId key : String} {amount : ℤ} (u : Uuid) (balance : ℤ) :
      Version now p (.deductPoints userId amount orderId key) u
        { p with balance, lastActivityAt := some now }
  | refunded {userId orderId key : String} {amount : ℤ} (u : Uuid) (balance : ℤ) :
      Version now p (.refundPoints userId amount orderId key) u { p with balance }
  | purchased (msg : TicketPurchasedDto) (n : ℤ) (t : Tier) :
      Version now p (.processTicketPurchase msg) msg.userId.value (p.purchase n t now p)
  | birthdaySet {newDate : String → Option Instant} {userId : UuidText} {text : String} (d : Instant) :
      Version now p (.processUserDateOfBirthSet newDate userId text) userId.value
        { p with birthdayDate := some d }
  | birthdaySetGranted {newDate : String → Option Instant} {userId : UuidText} {text : String}
      (d : Instant) (t : Tier) :
      Version now p (.processUserDateOfBirthSet newDate userId text) userId.value
        (LoyaltyProfile.birthdayGrant t now { p with birthdayDate := some d })
  | birthdayGranted (userId : UuidText) (t : Tier) :
      Version now p (.grantBirthdayBonusForUser userId) userId.value (p.birthdayGrant t now)
  | adjusted {userId : UuidText} {adminId reason : String} {points : ℤ} (t : Tier) :
      Version now p (.modifyPointsGrpc userId adminId points reason) userId.value
        (p.adjust points t now)
  | vipGranted {userId : UuidText} {adminId reason : String} :
      Version now p (.grantVipStatusGrpc userId adminId reason) userId.value { p with tier := .GOLD }
  | rewarded {event : ActionEvent} {achievement : Achievement} (u : Uuid) (n : ℤ) :
      Version now p (.processAchievement event achievement) u
        { p with balance := p.balance + n, lifetimePoints := p.lifetimePoints + n }
  | expired (u : Uuid) : Version now p (.expirePoints u) u { p with balance := 0 }
  | annualReset (u : Uuid) :
      Version now p (.resetAnnualStats u) u { p with yearPoints := 0, yearVisits := 0 }
  | goldReset (u : Uuid) (hm : p.goldUpgradeUsedMonth.any (·.before (getUtcMonthKey now)) = true) :
      Version now p (.goldReset u) u { p with goldUpgradeUsedMonth := none }
  | reserved (userId orderId : UuidText) (hgold : p.tier = .GOLD) :
      Version now p (.useGoldUpgrade userId orderId) userId.value
        { p with goldUpgradeUsedMonth := some (getUtcMonthKey now) }
  | rolledBack (userId orderId : UuidText) :
      Version now p (.rollbackGoldUpgrade userId orderId) userId.value
        { p with goldUpgradeUsedMonth := none }

/-- A version written for one user is the user's, and nobody else's profile moves. -/
theorem version_of {c : Call} (hx : ∀ w, x.profileOrDefault w = db.profileOrDefault w)
    (hp : x.profiles v = some p) (hprof : db'.profiles = (x.apply (.updateProfile v q)).profiles)
    (hq : Version now p c v q) (u : Uuid) :
    Version now (db.profileOrDefault u) c u (db'.profileOrDefault u) := by
  rw [profileOrDefault_version hx hp hprof]
  by_cases h : u = v
  · subst h
    rw [if_pos rfl, ← hx, profileOrDefault_of hp]
    exact hq
  · rw [if_neg h]
    exact .still c u

theorem version_still {c : Call} (h : ∀ u, db'.profileOrDefault u = db.profileOrDefault u) (u : Uuid) :
    Version now (db.profileOrDefault u) c u (db'.profileOrDefault u) := by
  rw [h u]
  exact .still c u

theorem progressed_version {event : ActionEvent} {achievement : Achievement} {eventId : String}
    {userId : Uuid} {targetCount : ℤ}
    (h : ProgressOutcome db eventId userId achievement targetCount now db') (u : Uuid) :
    Version now (db.profileOrDefault u) (.processAchievement event achievement) u
      (db'.profileOrDefault u) := by
  cases h with
  | duplicate _ _ => exact version_still (fun _ => by simp) u
  | swallowed _ _ _ => exact version_still (fun _ => by simp [DB.marked]) u
  | advanced _ _ _ => exact version_still (fun _ => by simp [DB.marked]) u
  | unlocked _ _ _ _ => exact version_still (fun _ => by simp [DB.marked, DB.unlocked]) u
  | @rewarded n _ _ _ _ =>
    exact version_of (v := userId)
      (x := (db.marked userId (uniqueProcessId eventId achievement)).unlocked userId achievement.id
        (advancedRow (db.userAchievements (userId, achievement.id)) targetCount n) now)
      (fun _ => by simp [DB.unlocked, DB.marked]) (by simp [DB.unlocked, DB.marked]) rfl
      (.rewarded userId achievement.rewardPoints) u

/-- What a call does to the profile of each user. -/
theorem effect_version {c : Call} (h : Effect now db c db') (u : Uuid) :
    Version now (db.profileOrDefault u) c u (db'.profileOrDefault u) := by
  cases h with
  | still _ => exact .still c u
  | @deducted _ _ _ _ command p _ _ hp =>
    exact version_of (x := db.apply (.event (command.record (p.balance - command.amount))))
      (fun _ => by simp) (by simpa using hp) rfl (.deducted command.userId (p.balance - command.amount)) u
  | @refunded _ _ _ _ command p debit _ _ hp =>
    exact version_of (x := db.apply (.event (command.record (p.balance - debit.points))))
      (fun _ => by simp) (by simpa using hp) rfl (.refunded command.userId (p.balance - debit.points)) u
  | purchaseSeen _ _ => exact version_still (fun _ => by simp) u
  | @purchased msg n rows _ _ _ =>
    refine version_of (x := db.ensureProfile msg.userId.value) (fun _ => by simp)
      (ensureProfile_self _) ?_ (.purchased msg n ((db.profileOrDefault msg.userId.value).purchaseTier n)) u
    by_cases hn : n > 0 <;> simp [DB.purchased, DB.credited, hn, DB.post]
  | @birthdaySet _ userId _ d _ _ h =>
    have hset : (db.birthdaySet userId d).profiles userId.value =
        some { db.profileOrDefault userId.value with birthdayDate := some d } := by
      simp [DB.birthdaySet]
    cases h with
    | unchanged =>
      exact version_of (x := db.ensureProfile userId.value) (fun _ => by simp) (ensureProfile_self _)
        rfl (.birthdaySet d) u
    | @granted p _ hp _ =>
      obtain rfl := Option.some.inj (hset.symm.trans hp)
      refine version_of (x := db.ensureProfile userId.value) (fun _ => by simp) (ensureProfile_self _) ?_
        (.birthdaySetGranted d (LoyaltyProfile.birthdayTier
          { db.profileOrDefault userId.value with birthdayDate := some d })) u
      funext w
      simp only [DB.birthdayGranted, announced_profiles, profiles_other, Write.table, reduceCtorEq,
        not_false_eq_true, profiles_updateProfile, DB.birthdaySet]
      split <;> simp
  | birthdayGranted h =>
    cases h with
    | unchanged => exact .still _ u
    | @granted p _ hp _ =>
      exact version_of (x := db) (fun _ => rfl) hp (by simp [DB.birthdayGranted])
        (.birthdayGranted _ p.birthdayTier) u
  | @adjusted userId adminId reason points =>
    exact version_of (x := db.ensureProfile userId.value) (fun _ => by simp) (ensureProfile_self _)
      (by simp [DB.adjusted, DB.post])
      (.adjusted ((db.profileOrDefault userId.value).adjustTier points)) u
  | @vipGranted userId adminId reason =>
    exact version_of (x := db.ensureProfile userId.value) (fun _ => by simp) (ensureProfile_self _)
      (by simp [DB.vipGranted, DB.post]) .vipGranted u
  | progressed h => exact progressed_version h u
  | expired hp => exact version_of (x := db) (fun _ => rfl) hp (by simp [DB.post]) (.expired _) u
  | annualReset hp => exact version_of (x := db) (fun _ => rfl) hp rfl (.annualReset _) u
  | goldReset hp hm => exact version_of (x := db) (fun _ => rfl) hp rfl (.goldReset _ hm) u
  | @reserved userId orderId p hp _ hgold _ _ =>
    exact version_of (x := db.apply (.reservation (reservationRow userId orderId now)))
      (fun _ => by simp) (by simpa using hp) rfl (.reserved userId orderId hgold) u
  | @rolledBack userId orderId p r hp _ _ =>
    unfold DB.rolledBack
    simp only
    split
    · exact version_of (x := db.apply (.release userId.value orderId.value now))
        (fun _ => by simp) (by simpa using hp) rfl (.rolledBack userId orderId) u
    · exact version_still (fun _ => by simp) u

end versions

/-- What an operation does to the database: a call, a read that creates the profile, or a change of
    the definitions. -/
inductive OpEffect (db : DB) : Op → DB → Prop
  | call {c : Call} {now : Instant} {db' : DB} (h : Effect now db c db') : OpEffect db (.call c now) db'
  | ensured (userId : Uuid) : OpEffect db (.getBalance userId) (db.ensureProfile userId)
  | defined (op : Op) (achievements : List Achievement) : OpEffect db op { db with achievements }

theorem op_effect (op : Op) (db : DB) : OpEffect db op (op.exec db) := by
  cases op with
  | call c now => exact .call (exec_effect c now db)
  | getBalance userId => exact .ensured userId
  | createAchievement id input =>
    simp only [Op.exec, createAchievementGrpc]
    split
    · exact .defined _ db.achievements
    split
    · exact .defined _ db.achievements
    · exact .defined _ _
  | updateAchievement id input =>
    simp only [Op.exec, updateAchievementGrpc]
    split
    · exact .defined _ db.achievements
    split
    · exact .defined _ db.achievements
    · exact .defined _ _
  | deleteAchievement id =>
    simp only [Op.exec, deleteAchievementGrpc]
    split
    · exact .defined _ db.achievements
    split
    · exact .defined _ db.achievements
    · exact .defined _ _

/-- What neither a created profile nor the definitions show, no operation but a call shows. -/
theorem op_aside {β : Type} {f : DB → β} {db : DB} {op : Op} (hop : ∀ c now, op ≠ .call c now)
    (hens : ∀ u, f (db.ensureProfile u) = f db)
    (hdef : ∀ achievements, f { db with achievements } = f db) : f (op.exec db) = f db := by
  have heff := op_effect op db
  generalize op.exec db = db' at heff ⊢
  cases heff with
  | call _ => exact absurd rfl (hop _ _)
  | ensured u => exact hens u
  | defined _ achievements => exact hdef achievements

/-- What every statement, every profile created and every change of the definitions keeps, every
    operation keeps. -/
theorem op_stmts_keep {I : DB → Prop}
    (hstmt : ∀ {β : Type} (s : Stmt β) {x : DB} {b : β} {ws : List Write}, I x →
      x.eval s = .ok (b, ws) → I (pg.view x ws))
    (hens : ∀ {x : DB} (u : Uuid), I x → I (x.ensureProfile u))
    (hdef : ∀ {x : DB} achievements, I x → I { x with achievements }) {db : DB} (op : Op) (hI : I db) :
    I (op.exec db) := by
  have heff := op_effect op db
  generalize hx : op.exec db = db' at heff ⊢
  cases heff with
  | ensured u => exact hens u hI
  | defined _ achievements => exact hdef achievements hI
  | @call c now _ _ =>
    rcases exec_cases c now db with ⟨e, -, he⟩ | ⟨a, y, hr, he⟩
    · simp only [Op.exec, he] at hx
      rw [← hx]; exact hI
    · simp only [Op.exec, he] at hx
      rw [← hx]
      exact pg.run_keeps hstmt hI hr

/-- What every row version keeps, every operation keeps. -/
theorem op_keeps {I : DB → Prop} (hstep : ∀ {x : DB} {w : Write}, I x → I (x.apply w))
    (hdef : ∀ {x : DB} achievements, I x → I { x with achievements }) {db : DB} (op : Op) (hI : I db) :
    I (op.exec db) := by
  refine op_stmts_keep (fun _ _ _ ws hI _ => pg.view_keeps hstep ws hI) (fun {x} u hI => ?_) hdef op hI
  unfold DB.ensureProfile
  split
  · exact hI
  · exact hstep hI

/-- A profile that exists goes on to exist. -/
theorem profiles_persist {db : DB} {u : Uuid} (op : Op) (h : (db.profiles u).isSome = true) :
    ((op.exec db).profiles u).isSome = true := by
  refine op_keeps (I := fun x => (x.profiles u).isSome = true) (fun {x w} hI => ?_) (fun _ hI => hI) op h
  cases w with
  | insertProfile v =>
    rw [profiles_insertProfile]
    split
    · rename_i heq
      rw [← heq, Option.isSome_or, hI, Bool.true_or]
    · exact hI
  | updateProfile v row =>
    rw [profiles_updateProfile]
    split
    · rename_i heq
      rw [← heq, Option.isSome_map]
      exact hI
    · exact hI
  | _ => exact hI

end CinemaLoyalty
