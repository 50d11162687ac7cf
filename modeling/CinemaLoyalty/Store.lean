import CinemaLoyalty.Schema
import CinemaLoyalty.Lib.Program
import Mathlib.Logic.Function.Basic

/-! @svc Store | layer:model | source:prisma/schema.prisma, prisma/migrations, src/prisma/profile-transaction.ts

    The database and the statements the transaction callbacks issue. A statement answers and names
    the row versions it writes; a unique key that is taken, a row that is not there, a number out of
    its column's range and a text with U+0000 fail. Foreign keys are not checked: they name rows that the same
    transaction created or that are never deleted. `pg` is the engine; below it stand one inversion
    lemma for each writing statement and the lookup lemmas for each kind of row version. -/

namespace CinemaLoyalty
open Txn

/-- The tables of the loyalty schema. Tables used through a unique key map the key to its row. -/
structure DB where
  profiles : Uuid → Option LoyaltyProfile
  processedEvents : String → Option ProcessedEvent
  pointsTransactions : List PointsTransaction
  checkoutDebits : RowId → Option CheckoutDebit
  goldUpgradeReservations : List GoldUpgradeReservation
  userBonusGrants : Uuid × String × ℤ → Option UserBonusGrant
  outboxEvents : List OutboxEvent
  userAchievements : Uuid × Uuid → Option UserAchievement
  achievementDispatchIntents : Uuid × String × AchievementAction → Option AchievementDispatchIntent
  achievements : List Achievement

/-- The freshly migrated database. -/
def DB.empty : DB where
  profiles _ := none
  processedEvents _ := none
  pointsTransactions := []
  checkoutDebits _ := none
  goldUpgradeReservations := []
  userBonusGrants _ := none
  outboxEvents := []
  userAchievements _ := none
  achievementDispatchIntents _ := none
  achievements := []

/-- The ledger rows of a user, in commit order. -/
def DB.ledgerOf (db : DB) (userId : Uuid) : List PointsTransaction :=
  db.pointsTransactions.filter (·.userId = userId)

/-- The outbox rows of a user's profile, in commit order. -/
def DB.outboxOf (db : DB) (userId : Uuid) : List OutboxEvent :=
  db.outboxEvents.filter (·.aggregateId = userId)

/-- The Gold reservations of a user. -/
def DB.reservationsOf (db : DB) (userId : Uuid) : List GoldUpgradeReservation :=
  db.goldUpgradeReservations.filter (·.userId = userId)

/-! ### Row versions -/

/-- The tables a transaction writes. -/
inductive Table
  | profiles | events | ledger | debits | reservations | grants | outbox | progress | intents
  deriving DecidableEq

/-- A row version: a new row, or a new version of an existing one. -/
inductive Write
  | insertProfile (userId : Uuid)
  | updateProfile (userId : Uuid) (row : LoyaltyProfile)
  | event (row : ProcessedEvent)
  | transaction (row : PointsTransaction)
  | debit (debitId : RowId) (row : CheckoutDebit)
  | reservation (row : GoldUpgradeReservation)
  | release (userId orderId : Uuid) (releasedAt : Instant)
  | grant (userId : Uuid) (type : String) (grantYear : ℤ) (row : UserBonusGrant)
  | outbox (row : OutboxEvent)
  | userAchievement (userId achievementId : Uuid) (row : UserAchievement)
  | intent (userId : Uuid) (eventId : String) (actionType : AchievementAction)
      (row : AchievementDispatchIntent)

/-- The table a row version belongs to. -/
@[simp] def Write.table : Write → Table
  | .insertProfile _ => .profiles
  | .updateProfile _ _ => .profiles
  | .event _ => .events
  | .transaction _ => .ledger
  | .debit _ _ => .debits
  | .reservation _ => .reservations
  | .release _ _ _ => .reservations
  | .grant _ _ _ _ => .grants
  | .outbox _ => .outbox
  | .userAchievement _ _ _ => .progress
  | .intent _ _ _ _ => .intents

/-- A released reservation keeps its user, month and order. -/
def GoldUpgradeReservation.release (userId orderId : Uuid) (releasedAt : Instant)
    (r : GoldUpgradeReservation) : GoldUpgradeReservation :=
  if r.userId = userId ∧ r.orderId = some orderId then { r with releasedAt := some releasedAt } else r

/-- The database with one more row version. -/
def DB.apply (db : DB) : Write → DB
  | .insertProfile u =>
    { db with profiles := Function.update db.profiles u ((db.profiles u).or (some {})) }
  | .updateProfile u row =>
    { db with profiles := Function.update db.profiles u ((db.profiles u).map fun _ => row) }
  | .event e =>
    { db with
      processedEvents :=
        Function.update db.processedEvents e.eventId ((db.processedEvents e.eventId).or (some e)) }
  | .transaction t => { db with pointsTransactions := db.pointsTransactions ++ [t] }
  | .debit id row => { db with checkoutDebits := Function.update db.checkoutDebits id (some row) }
  | .reservation r => { db with goldUpgradeReservations := db.goldUpgradeReservations ++ [r] }
  | .release u o stamp =>
    { db with goldUpgradeReservations := db.goldUpgradeReservations.map (.release u o stamp) }
  | .grant u ty y row =>
    { db with userBonusGrants := Function.update db.userBonusGrants (u, ty, y) (some row) }
  | .outbox e => { db with outboxEvents := db.outboxEvents ++ [e] }
  | .userAchievement u a row =>
    { db with userAchievements := Function.update db.userAchievements (u, a) (some row) }
  | .intent u e ty row =>
    { db with
      achievementDispatchIntents := Function.update db.achievementDispatchIntents (u, e, ty)
        ((db.achievementDispatchIntents (u, e, ty)).or (some row)) }

/-! ### Statements -/

/-- The statements of the transaction callbacks, indexed by what they answer. -/
inductive Stmt : Type → Type
  | createManyProfile (userId : Uuid) : Stmt Unit
  | lockProfile (userId : Uuid) : Stmt Bool
  | findProfile (userId : Uuid) : Stmt (Option LoyaltyProfile)
  | updateProfile (userId : Uuid) (data : LoyaltyProfile → LoyaltyProfile) : Stmt LoyaltyProfile
  | updateManyProfile (userId : Uuid) (cond : LoyaltyProfile → Bool)
      (data : LoyaltyProfile → LoyaltyProfile) : Stmt ℕ
  | findEvent (eventId : String) : Stmt (Option ProcessedEvent)
  | createEvent (row : ProcessedEvent) : Stmt Unit
  | createManyEvent (row : ProcessedEvent) : Stmt ℕ
  | findTransactions (userId : Uuid) (cond : PointsTransaction → Bool) :
      Stmt (List PointsTransaction)
  | createTransaction (row : PointsTransaction) : Stmt PointsTransaction
  | findDebit (debitId : RowId) : Stmt (Option CheckoutDebit)
  | createDebit (debitId : RowId) : Stmt Unit
  | linkDebit (debitId refundId : RowId) : Stmt ℕ
  | findReservations (userId : Uuid) (cond : GoldUpgradeReservation → Bool) :
      Stmt (List GoldUpgradeReservation)
  | createReservation (row : GoldUpgradeReservation) : Stmt Unit
  | releaseReservation (userId orderId : Uuid) (releasedAt : Instant) : Stmt Unit
  | findGrant (userId : Uuid) (type : String) (grantYear : ℤ) : Stmt (Option UserBonusGrant)
  | createGrant (userId : Uuid) (type : String) (grantYear : ℤ) (row : UserBonusGrant) : Stmt Unit
  | createOutbox (row : OutboxEvent) : Stmt Unit
  | findUserAchievement (userId achievementId : Uuid) : Stmt (Option UserAchievement)
  | createUserAchievement (userId achievementId : Uuid) (row : UserAchievement) :
      Stmt UserAchievement
  | updateUserAchievement (userId achievementId : Uuid)
      (data : UserAchievement → UserAchievement) : Stmt UserAchievement
  | updateManyUserAchievement (userId achievementId : Uuid) (cond : UserAchievement → Bool)
      (data : UserAchievement → UserAchievement) : Stmt ℕ
  | createManyIntents (userId : Uuid) (rows : List (String × AchievementAction × Json)) : Stmt Unit

/-- Two reservations that a unique index of the table excludes: the same order of a user, or two
    unreleased ones of a user and month. -/
def GoldUpgradeReservation.conflicts (r r' : GoldUpgradeReservation) : Bool :=
  r.userId = r'.userId &&
    ((r.orderId.isSome && r.orderId = r'.orderId) ||
      (r.month = r'.month && r.releasedAt.isNone && r'.releasedAt.isNone))

/-- Rows whose texts and payloads the columns of the intents hold. -/
def areIntentColumns (rows : List (String × AchievementAction × Json)) : Bool :=
  rows.all fun r => isTextColumn r.1 && isJsonbColumn r.2.2

/-- What a statement answers on a database and the row versions it writes. The texts of the other
    tables are constants and texts of uuids. -/
def DB.eval (db : DB) : {β : Type} → Stmt β → Except TxError (β × List Write)
  | _, .createManyProfile u => .ok ((), if (db.profiles u).isSome then [] else [.insertProfile u])
  | _, .lockProfile u => .ok ((db.profiles u).isSome, [])
  | _, .findProfile u => .ok (db.profiles u, [])
  | _, .updateProfile u data =>
    match db.profiles u with
    | none => .error (.prisma .P2025)
    | some p =>
      if (data p).inRange then
        if (data p).birthdayDate = p.birthdayDate ∨ (data p).birthdayDate.all isDateColumn then
          .ok (data p, [.updateProfile u (data p)])
        else .error (.prisma .P2039)
      else .error (.prisma .P2020)
  | _, .updateManyProfile u cond data =>
    match db.profiles u with
    | none => .ok (0, [])
    | some p =>
      if cond p then
        if (data p).inRange then .ok (1, [.updateProfile u (data p)]) else .error (.prisma .P2020)
      else .ok (0, [])
  | _, .findEvent k =>
    if isTextColumn k then .ok (db.processedEvents k, []) else .error (.prisma .P2039)
  | _, .createEvent row =>
    if !row.inRange then .error (.prisma .P2020)
    else if !isTextColumn row.eventId then .error (.prisma .P2039)
    else if (db.processedEvents row.eventId).isSome then .error (.prisma .P2002)
    else .ok ((), [.event row])
  | _, .createManyEvent row =>
    if !row.inRange then .error (.prisma .P2020)
    else if !isTextColumn row.eventId then .error (.prisma .P2039)
    else .ok (if (db.processedEvents row.eventId).isNone then (1, [.event row]) else (0, []))
  | _, .findTransactions u cond => .ok ((db.ledgerOf u).filter cond, [])
  | _, .createTransaction row =>
    let t := { row with seq := (db.ledgerOf row.userId).length }
    if !t.inRange then .error (.prisma .P2020)
    else if !isTextColumn t.description then .error (.prisma .P2039)
    else .ok (t, [.transaction t])
  | _, .findDebit id => .ok (db.checkoutDebits id, [])
  | _, .createDebit id =>
    if (db.checkoutDebits id).isSome then .error (.prisma .P2002) else .ok ((), [.debit id {}])
  | _, .linkDebit id refundId =>
    match db.checkoutDebits id with
    | none => .ok (0, [])
    | some d =>
      .ok (if d.refundId.isNone then (1, [.debit id { d with refundId := some refundId }])
        else (0, []))
  | _, .findReservations u cond => .ok ((db.reservationsOf u).filter cond, [])
  | _, .createReservation row =>
    if (db.reservationsOf row.userId).any row.conflicts then .error (.prisma .P2002)
    else .ok ((), [.reservation row])
  | _, .releaseReservation u o stamp =>
    if (db.reservationsOf u).any (·.orderId = some o) then .ok ((), [.release u o stamp])
    else .error (.prisma .P2025)
  | _, .findGrant u ty y => .ok (db.userBonusGrants (u, ty, y), [])
  | _, .createGrant u ty y row =>
    if (db.userBonusGrants (u, ty, y)).isSome then .error (.prisma .P2002)
    else .ok ((), [.grant u ty y row])
  | _, .createOutbox row =>
    .ok ((), [.outbox { row with seq := (db.outboxOf row.aggregateId).length }])
  | _, .findUserAchievement u a => .ok (db.userAchievements (u, a), [])
  | _, .createUserAchievement u a row =>
    if !row.inRange then .error (.prisma .P2020)
    else if (db.userAchievements (u, a)).isSome then .error (.prisma .P2002)
    else .ok (row, [.userAchievement u a row])
  | _, .updateUserAchievement u a data =>
    match db.userAchievements (u, a) with
    | none => .error (.prisma .P2025)
    | some r =>
      if (data r).inRange then .ok (data r, [.userAchievement u a (data r)])
      else .error (.prisma .P2020)
  | _, .updateManyUserAchievement u a cond data =>
    match db.userAchievements (u, a) with
    | none => .ok (0, [])
    | some r => .ok (if cond r then (1, [.userAchievement u a (data r)]) else (0, []))
  | _, .createManyIntents u rows =>
    if !areIntentColumns rows then .error (.prisma .P2039)
    else .ok ((), (rows.filter fun r => (db.achievementDispatchIntents (u, r.1, r.2.1)).isNone).map
      fun r => .intent u r.1 r.2.1 ⟨r.2.2⟩)

/-! ### Locks -/

/-- What a transaction can occupy: rows and unique keys. -/
inductive Resource
  | profileRow (userId : Uuid)
  | profileKey (userId : Uuid)
  | eventKey (eventId : String)
  | debitRow (debitId : RowId)
  | orderKey (userId : Uuid) (orderId : Option Uuid)
  | monthKey (userId : Uuid) (month : MonthKey)
  | grantKey (userId : Uuid) (type : String) (grantYear : ℤ)
  | progressRow (userId achievementId : Uuid)
  | intentKey (userId : Uuid) (eventId : String) (actionType : AchievementAction)
  deriving DecidableEq

/-- `SELECT ... FOR UPDATE` locks the row it finds; the other statements lock what they write. -/
def DB.locks (db : DB) : {β : Type} → Stmt β → List Resource
  | _, .lockProfile u => if (db.profiles u).isSome then [.profileRow u] else []
  | _, _ => []

/-- The row or the unique keys a row version occupies until its transaction ends. -/
def Write.holds : Write → List Resource
  | .insertProfile u => [.profileKey u]
  | .updateProfile u _ => [.profileRow u]
  | .event e => [.eventKey e.eventId]
  | .transaction _ => []
  | .debit id _ => [.debitRow id]
  | .reservation r => [.orderKey r.userId r.orderId, .monthKey r.userId r.month]
  | .release u o _ => [.orderKey u (some o)]
  | .grant u ty y _ => [.grantKey u ty y]
  | .outbox _ => []
  | .userAchievement u a _ => [.progressRow u a]
  | .intent u e ty _ => [.intentKey u e ty]

/-- PostgreSQL under Prisma, as far as the loyalty transactions use it. -/
def pg : Engine Stmt TxError DB Write Resource where
  eval s db := db.eval s
  apply := DB.apply
  locks s db := db.locks s
  holds := Write.holds

/-- A transaction callback answering `α`. -/
abbrev Tx := Prog Stmt TxError

/-- Run a callback alone, with its writes committed together at the end. -/
def DB.run {α : Type} (p : Tx α) (db : DB) : Except TxError (α × DB) := pg.run p db

/-! ### What each statement does to the rest of its program -/

section statements
variable {α : Type} {db : DB} {r : α × DB}
attribute [local simp] DB.eval

@[simp] theorem view_nil (db : DB) : pg.view db [] = db := rfl

@[simp] theorem view_one (db : DB) (w : Write) : pg.view db [w] = db.apply w := rfl

@[simp] theorem run_pure (a : α) (db : DB) : db.run (.pure a) = .ok (a, db) := rfl

@[simp] theorem run_throw (e : TxError) (db : DB) : db.run (.throw e : Tx α) = .error e := rfl

@[simp] theorem run_lockProfile (u : Uuid) (k : Bool → Tx α) :
    db.run (.stmt (.lockProfile u) k) = db.run (k (db.profiles u).isSome) := rfl

@[simp] theorem run_findProfile (u : Uuid) (k : Option LoyaltyProfile → Tx α) :
    db.run (.stmt (.findProfile u) k) = db.run (k (db.profiles u)) := rfl

theorem run_findEvent {key : String} {k : Option ProcessedEvent → Tx α}
    (hk : isTextColumn key = true) :
    db.run (.stmt (.findEvent key) k) = db.run (k (db.processedEvents key)) := by
  have heval : pg.eval (.findEvent key) db = .ok (db.processedEvents key, []) := if_pos hk
  exact pg.run_stmt_ok heval

/-- A key that the column cannot hold is not looked up. -/
theorem run_findEvent_refused {key : String} {k : Option ProcessedEvent → Tx α}
    (hk : isTextColumn key = false) :
    db.run (.stmt (.findEvent key) k) = .error (.prisma .P2039) := by
  have heval : pg.eval (.findEvent key) db = .error (.prisma .P2039) :=
    if_neg (by rw [hk]; exact Bool.false_ne_true)
  exact pg.run_stmt_error heval

theorem findEvent_ok {key : String} {k : Option ProcessedEvent → Tx α}
    (h : db.run (.stmt (.findEvent key) k) = .ok r) :
    isTextColumn key = true ∧ db.run (k (db.processedEvents key)) = .ok r := by
  cases hk : isTextColumn key with
  | false =>
    rw [run_findEvent_refused hk] at h
    cases h
  | true => exact ⟨rfl, run_findEvent hk ▸ h⟩

@[simp] theorem run_findTransactions (u : Uuid) (c : PointsTransaction → Bool)
    (k : List PointsTransaction → Tx α) :
    db.run (.stmt (.findTransactions u c) k) = db.run (k ((db.ledgerOf u).filter c)) := rfl

@[simp] theorem run_findDebit (id : RowId) (k : Option CheckoutDebit → Tx α) :
    db.run (.stmt (.findDebit id) k) = db.run (k (db.checkoutDebits id)) := rfl

@[simp] theorem run_findReservations (u : Uuid) (c : GoldUpgradeReservation → Bool)
    (k : List GoldUpgradeReservation → Tx α) :
    db.run (.stmt (.findReservations u c) k) = db.run (k ((db.reservationsOf u).filter c)) := rfl

@[simp] theorem run_findGrant (u : Uuid) (ty : String) (y : ℤ) (k : Option UserBonusGrant → Tx α) :
    db.run (.stmt (.findGrant u ty y) k) = db.run (k (db.userBonusGrants (u, ty, y))) := rfl

@[simp] theorem run_findUserAchievement (u a : Uuid) (k : Option UserAchievement → Tx α) :
    db.run (.stmt (.findUserAchievement u a) k) = db.run (k (db.userAchievements (u, a))) := rfl

@[simp] theorem run_createOutbox (row : OutboxEvent) (k : Unit → Tx α) :
    db.run (.stmt (.createOutbox row) k) =
      (db.apply (.outbox { row with seq := (db.outboxOf row.aggregateId).length })).run (k ()) := rfl

theorem run_createManyProfile (u : Uuid) (k : Unit → Tx α) :
    db.run (.stmt (.createManyProfile u) k) =
      (if (db.profiles u).isSome then db else db.apply (.insertProfile u)).run (k ()) := by
  by_cases h : (db.profiles u).isSome <;> simp [DB.run, Engine.run, pg, DB.eval, h, Engine.view]

theorem run_updateProfile {u : Uuid} {data : LoyaltyProfile → LoyaltyProfile}
    {k : LoyaltyProfile → Tx α} {p : LoyaltyProfile} (hp : db.profiles u = some p)
    (hr : (data p).inRange = true) (hd : (data p).birthdayDate = p.birthdayDate) :
    db.run (.stmt (.updateProfile u data) k) =
      (db.apply (.updateProfile u (data p))).run (k (data p)) := by
  have heval : pg.eval (.updateProfile u data) db = .ok (data p, [.updateProfile u (data p)]) := by
    simp [pg, DB.eval, hp, hr, hd]
  exact pg.run_stmt_ok heval

theorem updateProfile_ok {u : Uuid} {data : LoyaltyProfile → LoyaltyProfile}
    {k : LoyaltyProfile → Tx α} (h : db.run (.stmt (.updateProfile u data) k) = .ok r) :
    ∃ p, db.profiles u = some p ∧ (data p).inRange = true ∧
      (db.apply (.updateProfile u (data p))).run (k (data p)) = .ok r := by
  obtain ⟨b, ws, he, h⟩ := pg.run_stmt_inv h
  simp only [pg, DB.eval] at he
  split at he
  · cases he
  · rename_i p hp
    split at he
    · rename_i hr
      split at he
      · cases he
        exact ⟨p, hp, hr, h⟩
      · cases he
    · cases he

theorem run_updateManyProfile {u : Uuid} {c : LoyaltyProfile → Bool}
    {data : LoyaltyProfile → LoyaltyProfile} {k : ℕ → Tx α} {p : LoyaltyProfile}
    (hp : db.profiles u = some p) (hc : c p = true) (hr : (data p).inRange = true) :
    db.run (.stmt (.updateManyProfile u c data) k) =
      (db.apply (.updateProfile u (data p))).run (k 1) := by
  have heval : pg.eval (.updateManyProfile u c data) db =
      .ok (1, [.updateProfile u (data p)]) := by
    simp [pg, DB.eval, hp, hc, hr]
  exact pg.run_stmt_ok heval

theorem updateManyProfile_ok {u : Uuid} {c : LoyaltyProfile → Bool}
    {data : LoyaltyProfile → LoyaltyProfile} {k : ℕ → Tx α}
    (h : db.run (.stmt (.updateManyProfile u c data) k) = .ok r) :
    ((∀ p, db.profiles u = some p → c p = false) ∧ db.run (k 0) = .ok r) ∨
      ∃ p, db.profiles u = some p ∧ c p = true ∧ (data p).inRange = true ∧
        (db.apply (.updateProfile u (data p))).run (k 1) = .ok r := by
  obtain ⟨b, ws, he, h⟩ := pg.run_stmt_inv h
  simp only [pg, DB.eval] at he
  split at he
  · rename_i hp
    cases he
    exact .inl ⟨by simp [hp], h⟩
  · rename_i p hp
    split at he
    · rename_i hc
      split at he
      · rename_i hr
        cases he
        exact .inr ⟨p, hp, hc, hr, h⟩
      · cases he
    · rename_i hc
      cases he
      exact .inl ⟨by simpa [hp] using hc, h⟩

theorem createEvent_ok {row : ProcessedEvent} {k : Unit → Tx α}
    (h : db.run (.stmt (.createEvent row) k) = .ok r) :
    db.processedEvents row.eventId = none ∧ (db.apply (.event row)).run (k ()) = .ok r := by
  obtain ⟨b, ws, he, h⟩ := pg.run_stmt_inv h
  simp only [pg, DB.eval] at he
  split at he
  · cases he
  split at he
  · cases he
  split at he
  · cases he
  · rename_i hn
    cases he
    exact ⟨by simpa using hn, h⟩

theorem createManyEvent_ok {row : ProcessedEvent} {k : ℕ → Tx α}
    (h : db.run (.stmt (.createManyEvent row) k) = .ok r) :
    (db.processedEvents row.eventId = none ∧ (db.apply (.event row)).run (k 1) = .ok r) ∨
      ((db.processedEvents row.eventId).isSome = true ∧ db.run (k 0) = .ok r) := by
  obtain ⟨b, ws, he, h⟩ := pg.run_stmt_inv h
  simp only [pg, DB.eval] at he
  split at he
  · cases he
  split at he
  · cases he
  cases hn : db.processedEvents row.eventId with
  | none =>
    simp only [hn, Option.isNone_none, if_true, Except.ok.injEq, Prod.mk.injEq] at he
    obtain ⟨rfl, rfl⟩ := he
    exact .inl ⟨rfl, h⟩
  | some e =>
    simp only [hn, Option.isNone_some, Bool.false_eq_true, if_false, Except.ok.injEq,
      Prod.mk.injEq] at he
    obtain ⟨rfl, rfl⟩ := he
    exact .inr ⟨rfl, h⟩

/-- `skipDuplicates` on a recorded key inserts nothing. -/
theorem run_createManyEvent_taken {row e : ProcessedEvent} {k : ℕ → Tx α}
    (he : db.processedEvents row.eventId = some e) (hr : row.inRange = true)
    (hk : isTextColumn row.eventId = true) :
    db.run (.stmt (.createManyEvent row) k) = db.run (k 0) := by
  have heval : pg.eval (.createManyEvent row) db = .ok (0, []) := by simp [pg, DB.eval, hr, hk, he]
  exact pg.run_stmt_ok heval

theorem run_createTransaction {row : PointsTransaction} {k : PointsTransaction → Tx α}
    (hr : row.inRange = true) (hd : isTextColumn row.description = true) :
    db.run (.stmt (.createTransaction row) k) =
      (db.apply (.transaction { row with seq := (db.ledgerOf row.userId).length })).run
        (k { row with seq := (db.ledgerOf row.userId).length }) := by
  have hr' : ({ row with seq := (db.ledgerOf row.userId).length }).inRange = true := hr
  have heval : pg.eval (.createTransaction row) db =
      .ok ({ row with seq := (db.ledgerOf row.userId).length },
        [.transaction { row with seq := (db.ledgerOf row.userId).length }]) := by
    simp [pg, hr', hd]
  exact pg.run_stmt_ok heval

theorem createTransaction_ok {row : PointsTransaction} {k : PointsTransaction → Tx α}
    (h : db.run (.stmt (.createTransaction row) k) = .ok r) :
    ∃ t, t = { row with seq := (db.ledgerOf row.userId).length } ∧ t.inRange = true ∧
      (db.apply (.transaction t)).run (k t) = .ok r := by
  obtain ⟨b, ws, he, h⟩ := pg.run_stmt_inv h
  simp only [pg, DB.eval] at he
  split at he
  · cases he
  rename_i hr
  split at he
  · cases he
  · cases he
    exact ⟨_, rfl, by simpa using hr, h⟩

theorem createDebit_ok {id : RowId} {k : Unit → Tx α}
    (h : db.run (.stmt (.createDebit id) k) = .ok r) :
    db.checkoutDebits id = none ∧ (db.apply (.debit id {})).run (k ()) = .ok r := by
  obtain ⟨b, ws, he, h⟩ := pg.run_stmt_inv h
  simp only [pg, DB.eval] at he
  split at he
  · cases he
  · rename_i hn
    cases he
    exact ⟨by simpa using hn, h⟩

theorem linkDebit_ok {id refundId : RowId} {k : ℕ → Tx α}
    (h : db.run (.stmt (.linkDebit id refundId) k) = .ok r) :
    db.run (k 0) = .ok r ∨ (db.checkoutDebits id = some {} ∧
      (db.apply (.debit id { refundId := some refundId })).run (k 1) = .ok r) := by
  obtain ⟨b, ws, he, h⟩ := pg.run_stmt_inv h
  simp only [pg, DB.eval] at he
  split at he
  · cases he; exact .inl h
  · rename_i d hd
    obtain ⟨_ | rid⟩ := d
    · simp only [Option.isNone_none, if_true, Except.ok.injEq, Prod.mk.injEq] at he
      obtain ⟨rfl, rfl⟩ := he
      exact .inr ⟨hd, h⟩
    · simp only [Option.isNone_some, Bool.false_eq_true, if_false, Except.ok.injEq,
        Prod.mk.injEq] at he
      obtain ⟨rfl, rfl⟩ := he
      exact .inl h

theorem run_createReservation {row : GoldUpgradeReservation} {k : Unit → Tx α}
    (h : (db.reservationsOf row.userId).any row.conflicts = false) :
    db.run (.stmt (.createReservation row) k) = (db.apply (.reservation row)).run (k ()) := by
  have heval : pg.eval (.createReservation row) db = .ok ((), [.reservation row]) := by
    simp only [pg, DB.eval, h]
    rfl
  exact pg.run_stmt_ok heval

theorem createReservation_ok {row : GoldUpgradeReservation} {k : Unit → Tx α}
    (h : db.run (.stmt (.createReservation row) k) = .ok r) :
    (db.reservationsOf row.userId).any row.conflicts = false ∧
      (db.apply (.reservation row)).run (k ()) = .ok r := by
  obtain ⟨b, ws, he, h⟩ := pg.run_stmt_inv h
  simp only [pg, DB.eval] at he
  split at he
  · cases he
  · rename_i hn
    cases he
    exact ⟨by simpa using hn, h⟩

theorem releaseReservation_ok {u o : Uuid} {stamp : Instant} {k : Unit → Tx α}
    (h : db.run (.stmt (.releaseReservation u o stamp) k) = .ok r) :
    (db.apply (.release u o stamp)).run (k ()) = .ok r := by
  obtain ⟨b, ws, he, h⟩ := pg.run_stmt_inv h
  simp only [pg, DB.eval] at he
  split at he
  · cases he; exact h
  · cases he

theorem run_createGrant {u : Uuid} {ty : String} {y : ℤ} {row : UserBonusGrant} {k : Unit → Tx α}
    (hn : db.userBonusGrants (u, ty, y) = none) :
    db.run (.stmt (.createGrant u ty y row) k) = (db.apply (.grant u ty y row)).run (k ()) := by
  have heval : pg.eval (.createGrant u ty y row) db = .ok ((), [.grant u ty y row]) := by
    simp [pg, hn]
  exact pg.run_stmt_ok heval

theorem createGrant_ok {u : Uuid} {ty : String} {y : ℤ} {row : UserBonusGrant} {k : Unit → Tx α}
    (h : db.run (.stmt (.createGrant u ty y row) k) = .ok r) :
    db.userBonusGrants (u, ty, y) = none ∧ (db.apply (.grant u ty y row)).run (k ()) = .ok r := by
  obtain ⟨b, ws, he, h⟩ := pg.run_stmt_inv h
  simp only [pg, DB.eval] at he
  split at he
  · cases he
  · rename_i hn
    cases he
    exact ⟨by simpa using hn, h⟩

theorem createUserAchievement_ok {u a : Uuid} {row : UserAchievement} {k : UserAchievement → Tx α}
    (h : db.run (.stmt (.createUserAchievement u a row) k) = .ok r) :
    db.userAchievements (u, a) = none ∧
      (db.apply (.userAchievement u a row)).run (k row) = .ok r := by
  obtain ⟨b, ws, he, h⟩ := pg.run_stmt_inv h
  simp only [pg, DB.eval] at he
  split at he
  · cases he
  split at he
  · cases he
  · rename_i hn
    cases he
    exact ⟨by simpa using hn, h⟩

theorem updateUserAchievement_ok {u a : Uuid} {data : UserAchievement → UserAchievement}
    {k : UserAchievement → Tx α} (h : db.run (.stmt (.updateUserAchievement u a data) k) = .ok r) :
    ∃ row, db.userAchievements (u, a) = some row ∧
      (db.apply (.userAchievement u a (data row))).run (k (data row)) = .ok r := by
  obtain ⟨b, ws, he, h⟩ := pg.run_stmt_inv h
  simp only [pg, DB.eval] at he
  split at he
  · cases he
  · rename_i row hrow
    split at he
    · cases he
      exact ⟨row, hrow, h⟩
    · cases he

theorem updateManyUserAchievement_ok {u a : Uuid} {c : UserAchievement → Bool}
    {data : UserAchievement → UserAchievement} {k : ℕ → Tx α}
    (h : db.run (.stmt (.updateManyUserAchievement u a c data) k) = .ok r) :
    ((∀ row, db.userAchievements (u, a) = some row → c row = false) ∧ db.run (k 0) = .ok r) ∨
      ∃ row, db.userAchievements (u, a) = some row ∧ c row = true ∧
        (db.apply (.userAchievement u a (data row))).run (k 1) = .ok r := by
  obtain ⟨b, ws, he, h⟩ := pg.run_stmt_inv h
  simp only [pg, DB.eval] at he
  split at he
  · rename_i hn
    cases he
    exact .inl ⟨by simp [hn], h⟩
  · rename_i row hrow
    by_cases hc : c row = true
    · simp only [hc, if_true, Except.ok.injEq, Prod.mk.injEq] at he
      obtain ⟨rfl, rfl⟩ := he
      exact .inr ⟨row, hrow, hc, h⟩
    · simp only [hc, Bool.false_eq_true, if_false, Except.ok.injEq, Prod.mk.injEq] at he
      obtain ⟨rfl, rfl⟩ := he
      exact .inl ⟨by simpa [hrow] using hc, h⟩

/-- The database after `createMany` on the intents, which skips those already there. -/
def DB.withIntents (db : DB) (u : Uuid) (rows : List (String × AchievementAction × Json)) : DB :=
  pg.view db ((rows.filter fun r => (db.achievementDispatchIntents (u, r.1, r.2.1)).isNone).map
    fun r => .intent u r.1 r.2.1 ⟨r.2.2⟩)

theorem createManyIntents_ok {u : Uuid} {rows : List (String × AchievementAction × Json)}
    {k : Unit → Tx α} (h : db.run (.stmt (.createManyIntents u rows) k) = .ok r) :
    areIntentColumns rows = true ∧ (db.withIntents u rows).run (k ()) = .ok r := by
  obtain ⟨b, ws, he, h⟩ := pg.run_stmt_inv h
  simp only [pg, DB.eval] at he
  split at he
  · cases he
  · rename_i hrows
    cases he
    exact ⟨by simpa using hrows, h⟩

/-- What `createMany` on the intents writes is intents of the user. -/
theorem createManyIntents_writes {u : Uuid} {rows : List (String × AchievementAction × Json)}
    {b : Unit} {ws : List Write} (h : db.eval (.createManyIntents u rows) = .ok (b, ws)) :
    ∀ w ∈ ws, ∃ e ty row, w = .intent u e ty row := by
  simp only [DB.eval] at h
  split at h
  · cases h
  · cases h
    intro w hw
    obtain ⟨r, -, rfl⟩ := List.mem_map.1 hw
    exact ⟨_, _, _, rfl⟩

end statements

end CinemaLoyalty
