import CinemaLoyalty.Admin
import CinemaLoyalty.Birthday
import CinemaLoyalty.Expiration
import CinemaLoyalty.GoldUpgrade
import Mathlib.Logic.Relation

/-! @svc Service | layer:system | source:src/loyalty, src/achievements

    The service as one machine: every call of the loyalty and achievement services as a transaction
    with its catch clause, the operations of a run, and the changes of the database they are made
    of. An invariant kept by every `Change` holds after every run (`run_invariant`). -/

namespace CinemaLoyalty
open Txn

/-- The calls that open a transaction. -/
inductive Call
  | deductPoints (userId : String) (amount : ℤ) (orderId idempotencyKey : String)
  | refundPoints (userId : String) (amount : ℤ) (orderId idempotencyKey : String)
  | processTicketPurchase (msg : TicketPurchasedDto)
  | processUserDateOfBirthSet (newDate : String → Option Instant) (userId : UuidText)
      (dateOfBirth : String)
  | grantBirthdayBonusForUser (userId : UuidText)
  | modifyPointsGrpc (userId : UuidText) (adminId : String) (points : ℤ) (reason : String)
  | grantVipStatusGrpc (userId : UuidText) (adminId reason : String)
  | processAchievement (event : ActionEvent) (achievement : Achievement)
  | expirePoints (userId : Uuid)
  | resetAnnualStats (userId : Uuid)
  | goldReset (userId : Uuid)
  | useGoldUpgrade (userId orderId : UuidText)
  | rollbackGoldUpgrade (userId orderId : UuidText)

/-- What a call answers. -/
inductive Answer
  | pointCommand (result : PointCommandResult)
  | birthday (result : BirthdayGrantResult)
  | modified (result : ModifyPointsResult)
  | vip (result : GrantVipStatusResult)
  | gold (result : GoldUpgradeResult)
  | expired (expired : Bool)
  | count (n : ℕ)
  | done
  deriving DecidableEq

/-- A job's step: the event is parsed again by the worker. -/
def processAchievementJob (event : ActionEvent) (achievement : Achievement) (now : Instant) :
    Tx Unit :=
  match event.parse.bind fun e => (Uuid.ofText e.userId).map fun u => (e, u) with
  | none => .throw (.error "Invalid achievement job payload")
  | some (event, userId) => processAchievement event.eventId userId achievement event now

/-- The transaction of a call, its clock reading being `now`. -/
def Call.tx (now : Instant) : Call → Tx Answer
  | .deductPoints userId amount orderId key => do
    let result ← CinemaLoyalty.deductPoints userId amount orderId key now
    return .pointCommand result
  | .refundPoints userId amount orderId key => do
    let result ← CinemaLoyalty.refundPoints userId amount orderId key now
    return .pointCommand result
  | .processTicketPurchase msg => do
    let _ ← CinemaLoyalty.processTicketPurchase msg now
    return .done
  | .processUserDateOfBirthSet newDate userId dateOfBirth => do
    let result ← CinemaLoyalty.processUserDateOfBirthSet newDate userId dateOfBirth now
    return .birthday result
  | .grantBirthdayBonusForUser userId => do
    let result ← CinemaLoyalty.grantBirthdayBonusForUser userId now
    return .birthday result
  | .modifyPointsGrpc userId adminId points reason => do
    let result ← CinemaLoyalty.modifyPointsGrpc userId adminId points reason now
    return .modified result
  | .grantVipStatusGrpc userId adminId reason => do
    let result ← CinemaLoyalty.grantVipStatusGrpc userId adminId reason now
    return .vip result
  | .processAchievement event achievement => do
    let _ ← processAchievementJob event achievement now
    return .done
  | .expirePoints userId => do
    let result ← expirePointsStep userId now
    return .expired result
  | .resetAnnualStats userId => do
    let _ ← resetAnnualStatsStep userId
    return .done
  | .goldReset userId => do
    let n ← goldResetStep userId now
    return .count n
  | .useGoldUpgrade userId orderId => do
    let result ← useGoldUpgradeTx userId orderId now
    return .gold result
  | .rollbackGoldUpgrade userId orderId => do
    let result ← rollbackGoldUpgradeTx userId orderId now
    return .gold result

/-- The catch clause of a call: what it answers when its transaction failed. -/
def Call.recover : Call → TxError → Except TxError Answer
  | .deductPoints .., e => (deductPointsCatch e).map .pointCommand
  | .refundPoints .., e => (refundPointsCatch e).map .pointCommand
  | .processUserDateOfBirthSet .., e => (processUserDateOfBirthSetCatch e).map .birthday
  | .grantBirthdayBonusForUser .., e => (grantBirthdayBonusForUserCatch e).map .birthday
  | .modifyPointsGrpc .., e => (modifyPointsCatch e).map .modified
  | .useGoldUpgrade .., e => (useGoldUpgradeCatch e).map .gold
  | .rollbackGoldUpgrade .., e => (rollbackGoldUpgradeCatch e).map .gold
  | _, e => .error e

/-- A call on a database no other call touches: its answer and the database after it. -/
def Call.exec (c : Call) (now : Instant) (db : DB) : Except TxError Answer × DB :=
  match db.transaction (c.tx now) with
  | (.ok a, db') => (.ok a, db')
  | (.error e, db') => (c.recover e, db')

/-- The operations of a run: calls with their clock readings, reads that create the profile
    (`getBalance`, `getFullProfile`, `getUserBalanceGrpc`), and admin changes of definitions. -/
inductive Op
  | call (c : Call) (now : Instant)
  | getBalance (userId : Uuid)
  | createAchievement (id : Uuid) (input : AchievementInput)
  | updateAchievement (id : Uuid) (input : AchievementInput)
  | deleteAchievement (id : Uuid)

/-- The database after an operation. -/
def Op.exec (db : DB) : Op → DB
  | .call c now => (c.exec now db).2
  | .getBalance userId => db.ensureProfile userId
  | .createAchievement id input => (createAchievementGrpc id input db).2
  | .updateAchievement id input => (updateAchievementGrpc id input db).2
  | .deleteAchievement id => (deleteAchievementGrpc id db).2

/-- The database after a run. -/
def DB.runOps (db : DB) (ops : List Op) : DB := ops.foldl Op.exec db

/-- A call either changes nothing or commits what its transaction answered with. -/
theorem exec_cases (c : Call) (now : Instant) (db : DB) :
    (∃ e, db.run (c.tx now) = .error e ∧ c.exec now db = (c.recover e, db)) ∨
      ∃ a db', db.run (c.tx now) = .ok (a, db') ∧ c.exec now db = (.ok a, db') := by
  unfold Call.exec
  rcases transaction_cases (c.tx now) db with ⟨e, hr, he⟩ | ⟨a, db', hr, he⟩
  · rw [he]; exact .inl ⟨e, hr, rfl⟩
  · rw [he]; exact .inr ⟨a, db', hr, rfl⟩

theorem exec_ok {c : Call} {now : Instant} {db db' : DB} {a : Answer}
    (h : db.run (c.tx now) = .ok (a, db')) : c.exec now db = (.ok a, db') := by
  rcases exec_cases c now db with ⟨e, hr, -⟩ | ⟨a', x, hr, he⟩
  · rw [h] at hr; cases hr
  · rw [h] at hr; cases hr; exact he

theorem exec_error {c : Call} {now : Instant} {db : DB} {e : TxError}
    (h : db.run (c.tx now) = .error e) : c.exec now db = (c.recover e, db) := by
  rcases exec_cases c now db with ⟨e', hr, he⟩ | ⟨a, x, hr, -⟩
  · rw [h] at hr; cases hr; exact he
  · rw [h] at hr; cases hr

/-- An answer wrapped for the caller is the answer of the program inside. -/
theorem run_wrap_eq {α : Type} (p : Tx α) (f : α → Answer) (db : DB) :
    db.run (p >>= fun r => .pure (f r)) = (db.run p).map fun (r, db') => (f r, db') := by
  unfold DB.run
  rw [pg.run_bind]
  cases pg.run p db <;> rfl

theorem run_wrap {α : Type} {p : Tx α} {f : α → Answer} {db db' : DB} {a : Answer}
    (h : db.run (p >>= fun r => .pure (f r)) = .ok (a, db')) :
    ∃ r, db.run p = .ok (r, db') ∧ a = f r := by
  rw [run_wrap_eq] at h
  cases hp : db.run p with
  | error e => rw [hp] at h; cases h
  | ok x =>
    rw [hp] at h
    cases h
    exact ⟨x.1, rfl, rfl⟩

theorem run_wrap_error {α : Type} {p : Tx α} {f : α → Answer} {db : DB} {e : TxError}
    (h : db.run (p >>= fun r => .pure (f r)) = .error e) : db.run p = .error e := by
  rw [run_wrap_eq] at h
  cases hp : db.run p with
  | error e' =>
    rw [hp] at h
    cases h
    rfl
  | ok x =>
    rw [hp] at h
    cases h

/-- The setter's catch clause answers only for a unique conflict. -/
theorem setter_recovers {newDate : String → Option Instant} {userId : UuidText}
    {dateOfBirth : String} {e : TxError} {a : Answer}
    (h : (Call.processUserDateOfBirthSet newDate userId dateOfBirth).recover e = .ok a) :
    e = .prisma .P2002 := by
  simp only [Call.recover, processUserDateOfBirthSetCatch] at h
  split at h
  · rfl
  · cases h

/-! ### Changes -/

/-- The parsed command of a call. -/
def Call.Issues (command : PointCommand) : Call → Prop
  | .deductPoints userId amount orderId key =>
    parsePointCommand .DEDUCT userId amount orderId key = some command
  | .refundPoints userId amount orderId key =>
    parsePointCommand .REFUND userId amount orderId key = some command
  | _ => False

/-- What one transaction, or one half of the date-of-birth setter, does to the database, the calls
    being those of `allowed`. -/
inductive Change (allowed : Call → Prop) (db : DB) : DB → Prop
  | ensured (userId : Uuid) : Change allowed db (db.ensureProfile userId)
  | deducted {command : PointCommand} {p : LoyaltyProfile} {orderId : String} {now : Instant}
      (hc : ∃ c, allowed c ∧ c.Issues command) (hop : command.operation = .DEDUCT)
      (hk : db.processedEvents command.idempotencyKey = none)
      (hp : db.profiles command.userId = some p)
      (hmin : LOYALTY_RULES.MINIMUM_DEDUCTION ≤ command.amount) (hbal : command.amount ≤ p.balance) :
      Change allowed db (db.deducted command p orderId now)
  | refunded {command : PointCommand} {p : LoyaltyProfile} {debit : PointsTransaction}
      {orderId : String} {now : Instant} (hc : ∃ c, allowed c ∧ c.Issues command)
      (hop : command.operation = .REFUND)
      (hk : db.processedEvents command.idempotencyKey = none) (hp : db.profiles command.userId = some p)
      (hdebit : (db.ledgerOf command.userId).filter (isDebitOf command.orderId) = [debit])
      (hrefunds : (db.ledgerOf command.userId).filter (isRefundOf command.orderId) = [])
      (hopen : db.checkoutDebits debit.id = some {}) (hamount : command.amount = -debit.points) :
      Change allowed db (db.refunded command p debit orderId now)
  | purchased {msg : TicketPurchasedDto} {pointsEarned : ℤ} {now : Instant}
      {rows : List (String × AchievementAction × Json)}
      (hn : db.processedEvents msg.eventId.text = none)
      (he : pointsEarned = pointsEarnedFor msg (db.profileOrDefault msg.userId.value)
        (db.pointsUsedFor msg) now)
      (hr : PurchaseInRange (db.profileOrDefault msg.userId.value) pointsEarned)
      (hrows : intentRows (purchaseEvents msg (db.pointsUsedFor msg)) = .pure rows) :
      Change allowed db ((db.purchased msg pointsEarned now).withIntents msg.userId.value rows)
  | birthdaySet (userId : UuidText) (birthdayDate : Instant) :
      Change allowed db (db.birthdaySet userId birthdayDate)
  | birthdayGranted {userId : UuidText} {p : LoyaltyProfile} {now : Instant}
      (hn : db.userBonusGrants (userId.value, BIRTHDAY_BONUS_GRANT_TYPE, getUtcLocalYear now) = none)
      (hp : db.profiles userId.value = some p)
      (hb : p.birthdayDate.any (isSameUtcMonthDay · now) = true) :
      Change allowed db (db.birthdayGranted userId p now)
  | adjusted {userId : UuidText} {adminId reason : String} {points : ℤ} {now : Instant}
      (hne : points ≠ 0) (hpos : 0 ≤ (db.profileOrDefault userId.value).balance + points) :
      Change allowed db (db.adjusted userId adminId points reason now)
  | vipGranted {userId : UuidText} {adminId reason : String} {now : Instant}
      (ht : (db.profileOrDefault userId.value).tier ≠ .GOLD) :
      Change allowed db (db.vipGranted userId adminId reason now)
  | expired {userId : Uuid} {p : LoyaltyProfile} {now : Instant} (hp : db.profiles userId = some p)
      (hpos : 0 < p.balance) :
      Change allowed db ((db.apply (.updateProfile userId { p with balance := 0 })).post
        (expireRow userId p.balance now))
  | annualReset {userId : Uuid} {p : LoyaltyProfile} (hp : db.profiles userId = some p) :
      Change allowed db (db.apply (.updateProfile userId { p with yearPoints := 0, yearVisits := 0 }))
  | mirrored {userId : Uuid} {p : LoyaltyProfile} (month : Option MonthKey)
      (hp : db.profiles userId = some p) :
      Change allowed db (db.apply (.updateProfile userId { p with goldUpgradeUsedMonth := month }))
  | reserved (r : GoldUpgradeReservation) : Change allowed db (db.apply (.reservation r))
  | released (userId orderId : Uuid) (releasedAt : Instant) :
      Change allowed db (db.apply (.release userId orderId releasedAt))
  | progressed {eventId : String} {userId : Uuid} {achievement : Achievement} {targetCount : ℤ}
      {now : Instant} {db' : DB} (hc : ∃ event, allowed (.processAchievement event achievement))
      (h : ProgressOutcome db eventId userId achievement targetCount now db') : Change allowed db db'
  | defined (achievements : List Achievement) : Change allowed db { db with achievements }

/-- Any number of changes. -/
abbrev Changes (allowed : Call → Prop) : DB → DB → Prop :=
  Relation.ReflTransGen (Change allowed)

variable {allowed : Call → Prop}

theorem grant_changes {db db' : DB} {userId : UuidText} {now : Instant} {res : BirthdayGrantResult}
    (h : GrantOutcome db userId now res db') : Changes allowed db db' := by
  cases h with
  | unchanged => exact .refl
  | granted hn hp hb => exact .single (.birthdayGranted hn hp hb)

theorem command_changes {db db' : DB} {command : PointCommand} {res : PointCommandResult}
    {effect : ℤ → DB → Prop} (h : Outcome db command effect res db')
    (he : ∀ b db', db.processedEvents command.idempotencyKey = none → effect b db' →
      Change allowed db db') : Changes allowed db db' := by
  cases h with
  | replayed _ _ => exact .refl
  | refused _ => exact .refl
  | effective hn h => exact .single (he _ _ hn h)

/-- A job step that succeeds is skipped or reaches its marker. -/
theorem processAchievementJob_ok {event : ActionEvent} {achievement : Achievement} {now : Instant}
    {db db' : DB} {r : Unit} (h : db.run (processAchievementJob event achievement now) = .ok (r, db')) :
    db' = db ∨ ∃ eventId userId targetCount,
      ProgressOutcome db eventId userId achievement targetCount now db' := by
  unfold processAchievementJob processAchievement at h
  split at h
  · cases h
  split at h
  · cases h; exact .inl rfl
  simp only at h
  split at h
  · cases h; exact .inl rfl
  · exact .inr ⟨_, _, _, processAchievementTx_ok h⟩

/-- A committed call is made of changes. -/
theorem tx_changes {c : Call} {now : Instant} {db db' : DB} {a : Answer} (hc : allowed c)
    (h : db.run (c.tx now) = .ok (a, db')) : Changes allowed db db' := by
  cases c with
  | deductPoints userId amount orderId key =>
    obtain ⟨r, h, -⟩ := run_wrap h
    unfold deductPoints at h
    split at h
    · cases h; exact .refl
    · rename_i command hparse
      refine command_changes (deductPointsTx_ok h) fun b db' hk he => ?_
      obtain ⟨p, hp, hmin, hbal, -, rfl⟩ := he
      exact .deducted ⟨_, hc, hparse⟩ (parse_operation hparse) hk hp hmin hbal
  | refundPoints userId amount orderId key =>
    obtain ⟨r, h, -⟩ := run_wrap h
    unfold refundPoints at h
    split at h
    · cases h; exact .refl
    · rename_i command hparse
      refine command_changes (refundPointsTx_ok h) fun b db' hk he => ?_
      obtain ⟨p, debit, hp, hdebit, hrefunds, hopen, hamount, -, rfl⟩ := he
      exact .refunded ⟨_, hc, hparse⟩ (parse_operation hparse) hk hp hdebit hrefunds hopen hamount
  | processTicketPurchase msg =>
    obtain ⟨r, h, -⟩ := run_wrap h
    cases processTicketPurchase_ok h with
    | duplicate _ _ => exact .single (.ensured _)
    | processed hn he hr hrows => exact .single (.purchased hn he hr hrows)
  | processUserDateOfBirthSet newDate userId dateOfBirth =>
    obtain ⟨r, h, -⟩ := run_wrap h
    obtain ⟨d, -, hg⟩ := processUserDateOfBirthSet_ok h
    exact (grant_changes hg).head (.birthdaySet userId d)
  | grantBirthdayBonusForUser userId =>
    obtain ⟨r, h, -⟩ := run_wrap h
    exact grant_changes (grantBirthdayBonusForUser_ok h)
  | modifyPointsGrpc userId adminId points reason =>
    obtain ⟨r, h, -⟩ := run_wrap h
    obtain ⟨hne, hpos, rfl⟩ := modifyPointsGrpc_ok h
    exact .single (.adjusted hne hpos)
  | grantVipStatusGrpc userId adminId reason =>
    obtain ⟨r, h, -⟩ := run_wrap h
    obtain ⟨ht, rfl⟩ := grantVipStatusGrpc_ok h
    exact .single (.vipGranted ht)
  | processAchievement event achievement =>
    obtain ⟨r, h, -⟩ := run_wrap h
    rcases processAchievementJob_ok h with rfl | ⟨_, _, _, h⟩
    · exact .refl
    · exact .single (.progressed ⟨event, hc⟩ h)
  | expirePoints userId =>
    obtain ⟨r, h, -⟩ := run_wrap h
    rcases expirePointsStep_ok h with rfl | ⟨p, hp, hpos, -, rfl⟩
    · exact .refl
    · exact .single (.expired hp hpos)
  | resetAnnualStats userId =>
    obtain ⟨r, h, -⟩ := run_wrap h
    rcases resetAnnualStatsStep_ok h with rfl | ⟨p, hp, rfl⟩
    · exact .refl
    · exact .single (.annualReset hp)
  | goldReset userId =>
    obtain ⟨r, h, -⟩ := run_wrap h
    rcases goldResetStep_ok h with rfl | ⟨p, hp, -, rfl⟩
    · exact .refl
    · exact .single (.mirrored none hp)
  | useGoldUpgrade userId orderId =>
    obtain ⟨r, h, -⟩ := run_wrap h
    rcases useGoldUpgradeTx_ok h with rfl | ⟨p, hp, -, -, rfl⟩
    · exact .refl
    · exact .tail (.single (.reserved _)) (.mirrored _ (by simpa using hp))
  | rollbackGoldUpgrade userId orderId =>
    obtain ⟨r, h, -⟩ := run_wrap h
    rcases rollbackGoldUpgradeTx_ok h with rfl | rfl | ⟨p, hp, rfl⟩
    · exact .refl
    · exact .single (.released _ _ _)
    · exact .tail (.single (.released _ _ _)) (.mirrored none (by simpa using hp))

/-- The parsed command of an operation. -/
def Op.Issues (command : PointCommand) : Op → Prop
  | .call c _ => c.Issues command
  | _ => False

/-- An operation is made of changes. -/
theorem op_changes (op : Op) (db : DB) (hop : ∀ c now, op = .call c now → allowed c) :
    Changes allowed db (op.exec db) := by
  cases op with
  | call c now =>
    rcases exec_cases c now db with ⟨e, -, he⟩ | ⟨a, db', hr, he⟩
    · simp only [Op.exec, he]; exact .refl
    · simp only [Op.exec, he]; exact tx_changes (hop c now rfl) hr
  | getBalance userId => exact .single (.ensured userId)
  | createAchievement id input =>
    simp only [Op.exec, createAchievementGrpc]
    split
    · exact .refl
    split
    · exact .refl
    · exact .single (.defined _)
  | updateAchievement id input =>
    simp only [Op.exec, updateAchievementGrpc]
    split
    · exact .refl
    split
    · exact .refl
    · exact .single (.defined _)
  | deleteAchievement id =>
    simp only [Op.exec, deleteAchievementGrpc]
    split
    · exact .refl
    split
    · exact .refl
    · exact .single (.defined _)

/-- What every change keeps, any number of changes keeps. -/
theorem changes_invariant {I : DB → Prop} (hstep : ∀ db db', I db → Change allowed db db' → I db')
    {db db' : DB} (h : Changes allowed db db') (hI : I db) : I db' := by
  induction h with
  | refl => exact hI
  | tail _ hc ih => exact hstep _ _ ih hc

/-- What every change keeps holds after every run of allowed calls. -/
theorem run_invariant_of {I : DB → Prop} (hstep : ∀ db db', I db → Change allowed db db' → I db')
    (ops : List Op) {db : DB} (hops : ∀ op ∈ ops, ∀ c now, op = .call c now → allowed c)
    (hI : I db) : I (db.runOps ops) := by
  induction ops generalizing db with
  | nil => exact hI
  | cons op ops ih =>
    have hchanges := op_changes op db (hops op (List.mem_cons_self ..))
    exact ih (fun op' hop => hops op' (List.mem_cons_of_mem _ hop))
      (changes_invariant hstep hchanges hI)

/-- What every change keeps holds after every run. -/
theorem run_invariant {I : DB → Prop}
    (hstep : ∀ db db', I db → Change (fun _ => True) db db' → I db') (ops : List Op) {db : DB}
    (hI : I db) : I (db.runOps ops) :=
  run_invariant_of hstep ops (fun _ _ _ _ _ => trivial) hI

end CinemaLoyalty
