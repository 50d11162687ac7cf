import CinemaLoyalty.Store
import CinemaLoyalty.Lib.Attempts

/-! @svc Transaction | layer:model | source:src/prisma/profile-transaction.ts

    The profile lock every callback takes first, the retry loop, a transaction run alone, and what
    each row version leaves in each table. A retried callback is a transaction that starts again from
    scratch, so alone it runs once. -/

namespace CinemaLoyalty
open Txn

/-- `lockLoyaltyProfile`: create the profile if asked to, lock it, and say whether it is there. -/
def lockLoyaltyProfile (userId : Uuid) (createIfMissing : Bool := false) : Tx Bool := do
  if createIfMissing then Prog.call (.createManyProfile userId)
  Prog.call (.lockProfile userId)

/-- The attempts of a callback before a conflict is thrown. -/
def MAX_TRANSACTION_ATTEMPTS : ℕ := 3

/-- `withTransactionRetry` next to transactions that commit the stores of `env`: how it ends and the
    row versions it publishes. Attempt `n` runs `operation n`. -/
def withTransactionRetry {α : Type} (env : DB → Prop) (operation : ℕ → Tx α) :
    Ended TxError α → List Write → Prop :=
  Retry pg env operation MAX_TRANSACTION_ATTEMPTS 1

/-- `withTransactionRetry` on a database no other transaction touches. -/
def DB.transaction {α : Type} (p : Tx α) (db : DB) : Except TxError α × DB := pg.atomically p db

section
variable {α : Type} {db db' : DB} {a : α}

/-- Alone, the loop answers what the transaction answers and publishes what it writes. -/
theorem retry_alone {p : Tx α} :
    db.transaction p = (.ok a, db') ↔
      ∃ pub, withTransactionRetry (· = db) (fun _ => p) (.returned a) pub ∧ pg.view db pub = db' := by
  rcases pg.atomically_cases p db with ⟨e, hr, he⟩ | ⟨a', db₁, hr, he⟩
  · rw [DB.transaction, he]
    refine ⟨nofun, fun ⟨pub, h, _⟩ => ?_⟩
    obtain ⟨m, h⟩ := retry_returned h rfl
    rw [← pg.view_nil db, attempt_alone h] at hr
    cases hr
  · rw [DB.transaction, he]
    constructor
    · rintro heq
      cases heq
      have hview : pg.run p (pg.view db []) = .ok (a, db') := hr
      obtain ⟨pub, hpub, h⟩ := attempt_of_run hview
      exact ⟨pub, .returns h, hpub.symm⟩
    · rintro ⟨pub, h, rfl⟩
      obtain ⟨m, h⟩ := retry_returned h rfl
      rw [← pg.view_nil db, attempt_alone h] at hr
      cases hr
      rfl

theorem transaction_commits {p : Tx α} (h : db.run p = .ok (a, db')) :
    db.transaction p = (.ok a, db') := by
  have hrun : pg.run p db = .ok (a, db') := h
  unfold DB.transaction Engine.atomically
  rw [hrun]

/-- A transaction that answers has run to its end, one that fails leaves the database alone. -/
theorem transaction_cases (p : Tx α) (db : DB) :
    (∃ e, db.run p = .error e ∧ db.transaction p = (.error e, db)) ∨
      ∃ a db', db.run p = .ok (a, db') ∧ db.transaction p = (.ok a, db') :=
  pg.atomically_cases p db

@[simp] theorem run_lock (u : Uuid) (k : Bool → Tx α) :
    db.run (lockLoyaltyProfile u >>= k) = db.run (k (db.profiles u).isSome) := rfl

/-- The database after `ON CONFLICT DO NOTHING` on the profile's key. -/
def DB.ensureProfile (db : DB) (u : Uuid) : DB :=
  if (db.profiles u).isSome then db else db.apply (.insertProfile u)

/-- The profile a creating lock finds. -/
def DB.profileOrDefault (db : DB) (u : Uuid) : LoyaltyProfile := (db.profiles u).getD {}

/-! ### Lookups through a row version -/

section lookups
variable {w : Write}

@[simp] theorem profiles_insertProfile (u v : Uuid) :
    (db.apply (.insertProfile u)).profiles v =
      if v = u then (db.profiles u).or (some {}) else db.profiles v := by
  simp [DB.apply, Function.update_apply]

@[simp] theorem profiles_updateProfile (u v : Uuid) (row : LoyaltyProfile) :
    (db.apply (.updateProfile u row)).profiles v =
      if v = u then (db.profiles u).map fun _ => row else db.profiles v := by
  simp [DB.apply, Function.update_apply]

@[simp] theorem profiles_other (h : ¬w.table = .profiles) :
    (db.apply w).profiles = db.profiles := by
  cases w <;> first | rfl | exact absurd rfl h

@[simp] theorem processedEvents_event (e : ProcessedEvent) (k : String) :
    (db.apply (.event e)).processedEvents k =
      if k = e.eventId then (db.processedEvents k).or (some e) else db.processedEvents k := by
  by_cases hk : k = e.eventId
  · subst hk; simp [DB.apply]
  · simp [DB.apply, hk]

/-- A recorded key stays what it is. -/
theorem processedEvents_apply {k : String} {e : ProcessedEvent} (w : Write)
    (h : db.processedEvents k = some e) : (db.apply w).processedEvents k = some e := by
  cases w with
  | event row =>
    rw [processedEvents_event]
    split
    · rw [h, Option.some_or]
    · exact h
  | _ => exact h

@[simp] theorem processedEvents_other (h : ¬w.table = .events) :
    (db.apply w).processedEvents = db.processedEvents := by
  cases w <;> first | rfl | exact absurd rfl h

@[simp] theorem ledgerOf_transaction (t : PointsTransaction) (u : Uuid) :
    (db.apply (.transaction t)).ledgerOf u =
      if t.userId = u then db.ledgerOf u ++ [t] else db.ledgerOf u := by
  by_cases hu : t.userId = u <;> simp [DB.apply, DB.ledgerOf, hu]

@[simp] theorem pointsTransactions_transaction (t : PointsTransaction) :
    (db.apply (.transaction t)).pointsTransactions = db.pointsTransactions ++ [t] := rfl

@[simp] theorem pointsTransactions_other (h : ¬w.table = .ledger) :
    (db.apply w).pointsTransactions = db.pointsTransactions := by
  cases w <;> first | rfl | exact absurd rfl h

@[simp] theorem ledgerOf_other (h : ¬w.table = .ledger) (u : Uuid) :
    (db.apply w).ledgerOf u = db.ledgerOf u := by
  unfold DB.ledgerOf; rw [pointsTransactions_other h]

@[simp] theorem checkoutDebits_debit (id id' : RowId) (row : CheckoutDebit) :
    (db.apply (.debit id row)).checkoutDebits id' =
      if id' = id then some row else db.checkoutDebits id' := by
  simp [DB.apply, Function.update_apply]

@[simp] theorem checkoutDebits_other (h : ¬w.table = .debits) :
    (db.apply w).checkoutDebits = db.checkoutDebits := by
  cases w <;> first | rfl | exact absurd rfl h

@[simp] theorem reservationsOf_reservation (r : GoldUpgradeReservation) (u : Uuid) :
    (db.apply (.reservation r)).reservationsOf u =
      if r.userId = u then db.reservationsOf u ++ [r] else db.reservationsOf u := by
  by_cases hu : r.userId = u <;> simp [DB.apply, DB.reservationsOf, hu]

@[simp] theorem release_userId (u o : Uuid) (stamp : Instant) (r : GoldUpgradeReservation) :
    (r.release u o stamp).userId = r.userId := by
  unfold GoldUpgradeReservation.release; split <;> rfl

@[simp] theorem reservationsOf_release (u v o : Uuid) (stamp : Instant) :
    (db.apply (.release u o stamp)).reservationsOf v =
      (db.reservationsOf v).map (.release u o stamp) := by
  simp [DB.apply, DB.reservationsOf, List.filter_map, Function.comp_def]

@[simp] theorem reservationsOf_other (h : ¬w.table = .reservations) (u : Uuid) :
    (db.apply w).reservationsOf u = db.reservationsOf u := by
  cases w <;> first | rfl | exact absurd rfl h

@[simp] theorem reservations_other (h : ¬w.table = .reservations) :
    (db.apply w).goldUpgradeReservations = db.goldUpgradeReservations := by
  cases w <;> first | rfl | exact absurd rfl h

@[simp] theorem userBonusGrants_grant (u : Uuid) (ty : String) (y : ℤ) (row : UserBonusGrant)
    (k : Uuid × String × ℤ) : (db.apply (.grant u ty y row)).userBonusGrants k =
      if k = (u, ty, y) then some row else db.userBonusGrants k := by
  simp [DB.apply, Function.update_apply]

@[simp] theorem userBonusGrants_other (h : ¬w.table = .grants) :
    (db.apply w).userBonusGrants = db.userBonusGrants := by
  cases w <;> first | rfl | exact absurd rfl h

@[simp] theorem outboxOf_outbox (e : OutboxEvent) (u : Uuid) :
    (db.apply (.outbox e)).outboxOf u =
      if e.aggregateId = u then db.outboxOf u ++ [e] else db.outboxOf u := by
  by_cases hu : e.aggregateId = u <;> simp [DB.apply, DB.outboxOf, hu]

@[simp] theorem outboxOf_other (h : ¬w.table = .outbox) (u : Uuid) :
    (db.apply w).outboxOf u = db.outboxOf u := by
  cases w <;> first | rfl | exact absurd rfl h

@[simp] theorem userAchievements_userAchievement (u a : Uuid) (row : UserAchievement)
    (k : Uuid × Uuid) : (db.apply (.userAchievement u a row)).userAchievements k =
      if k = (u, a) then some row else db.userAchievements k := by
  simp [DB.apply, Function.update_apply]

@[simp] theorem userAchievements_other (h : ¬w.table = .progress) :
    (db.apply w).userAchievements = db.userAchievements := by
  cases w <;> first | rfl | exact absurd rfl h

@[simp] theorem intents_other (h : ¬w.table = .intents) :
    (db.apply w).achievementDispatchIntents = db.achievementDispatchIntents := by
  cases w <;> first | rfl | exact absurd rfl h

@[simp] theorem achievements_apply (w : Write) : (db.apply w).achievements = db.achievements := by
  cases w <;> rfl

end lookups

/-- A new ledger row with the number its insert assigns. -/
def DB.numbered (db : DB) (t : PointsTransaction) : PointsTransaction :=
  { t with seq := (db.ledgerOf t.userId).length }

/-- The database with a ledger row appended. -/
def DB.post (db : DB) (t : PointsTransaction) : DB := db.apply (.transaction (db.numbered t))

@[simp] theorem numbered_userId (t : PointsTransaction) : (db.numbered t).userId = t.userId := rfl

@[simp] theorem numbered_points (t : PointsTransaction) : (db.numbered t).points = t.points := rfl

@[simp] theorem numbered_balanceAfter (t : PointsTransaction) :
    (db.numbered t).balanceAfter = t.balanceAfter := rfl

@[simp] theorem numbered_type (t : PointsTransaction) : (db.numbered t).type = t.type := rfl

@[simp] theorem numbered_orderId (t : PointsTransaction) : (db.numbered t).orderId = t.orderId := rfl

@[simp] theorem numbered_seq (t : PointsTransaction) :
    (db.numbered t).seq = (db.ledgerOf t.userId).length := rfl

/-- What no row version of a list changes is unchanged through the list. -/
theorem view_unchanged {β : Type} {f : DB → β} {ws : List Write} {db : DB}
    (h : ∀ w ∈ ws, ∀ x : DB, f (x.apply w) = f x) : f (pg.view db ws) = f db := by
  induction ws generalizing db with
  | nil => rfl
  | cons w ws ih =>
    rw [pg.view_cons]
    exact (ih fun w' hw' => h w' (List.mem_cons_of_mem _ hw')).trans
      (h w (List.mem_cons_self ..) db)

/-- Intents leave every other table alone. -/
theorem withIntents_unchanged {β : Type} {f : DB → β} (u : Uuid)
    (rows : List (String × AchievementAction × Json))
    (h : ∀ (x : DB) e ty row, f (x.apply (.intent u e ty row)) = f x) :
    f (db.withIntents u rows) = f db := by
  refine view_unchanged fun w hw x => ?_
  obtain ⟨r, -, rfl⟩ := List.mem_map.1 hw
  exact h x r.1 r.2.1 _

@[simp] theorem withIntents_profiles (u : Uuid) (rows : List (String × AchievementAction × Json)) :
    (db.withIntents u rows).profiles = db.profiles :=
  withIntents_unchanged u rows fun _ _ _ _ => rfl

@[simp] theorem withIntents_processedEvents (u : Uuid)
    (rows : List (String × AchievementAction × Json)) :
    (db.withIntents u rows).processedEvents = db.processedEvents :=
  withIntents_unchanged u rows fun _ _ _ _ => rfl

@[simp] theorem withIntents_pointsTransactions (u : Uuid)
    (rows : List (String × AchievementAction × Json)) :
    (db.withIntents u rows).pointsTransactions = db.pointsTransactions :=
  withIntents_unchanged u rows fun _ _ _ _ => rfl

@[simp] theorem withIntents_ledgerOf (u v : Uuid) (rows : List (String × AchievementAction × Json)) :
    (db.withIntents u rows).ledgerOf v = db.ledgerOf v :=
  withIntents_unchanged (f := fun x => x.ledgerOf v) u rows fun _ _ _ _ => rfl

@[simp] theorem withIntents_checkoutDebits (u : Uuid)
    (rows : List (String × AchievementAction × Json)) :
    (db.withIntents u rows).checkoutDebits = db.checkoutDebits :=
  withIntents_unchanged u rows fun _ _ _ _ => rfl

@[simp] theorem withIntents_outboxOf (u v : Uuid) (rows : List (String × AchievementAction × Json)) :
    (db.withIntents u rows).outboxOf v = db.outboxOf v :=
  withIntents_unchanged (f := fun x => x.outboxOf v) u rows fun _ _ _ _ => rfl

@[simp] theorem withIntents_userBonusGrants (u : Uuid)
    (rows : List (String × AchievementAction × Json)) :
    (db.withIntents u rows).userBonusGrants = db.userBonusGrants :=
  withIntents_unchanged u rows fun _ _ _ _ => rfl

@[simp] theorem withIntents_reservations (u : Uuid)
    (rows : List (String × AchievementAction × Json)) :
    (db.withIntents u rows).goldUpgradeReservations = db.goldUpgradeReservations :=
  withIntents_unchanged u rows fun _ _ _ _ => rfl

@[simp] theorem withIntents_userAchievements (u : Uuid)
    (rows : List (String × AchievementAction × Json)) :
    (db.withIntents u rows).userAchievements = db.userAchievements :=
  withIntents_unchanged u rows fun _ _ _ _ => rfl

/-! ### The creating lock -/

@[simp] theorem run_lock_create (u : Uuid) (k : Bool → Tx α) :
    db.run (lockLoyaltyProfile u true >>= k) = (db.ensureProfile u).run (k true) := by
  unfold lockLoyaltyProfile
  simp only [if_true, Prog.call_bind, Prog.stmt_bind, run_createManyProfile, run_lockProfile]
  unfold DB.ensureProfile
  cases h : db.profiles u <;> simp [h]

@[simp] theorem ensureProfile_profiles (u v : Uuid) :
    (db.ensureProfile u).profiles v =
      if v = u then some (db.profileOrDefault u) else db.profiles v := by
  unfold DB.ensureProfile DB.profileOrDefault
  by_cases hv : v = u
  · subst hv; cases h : db.profiles v <;> simp [h]
  · cases h : db.profiles u <;> simp [hv]

/-- A creating lock finds the profile. -/
theorem ensureProfile_self (u : Uuid) :
    (db.ensureProfile u).profiles u = some (db.profileOrDefault u) := by
  rw [ensureProfile_profiles, if_pos rfl]

/-- A nullable column after an update. -/
theorem updateProfile_column {β : Type} {u : Uuid} {p q : LoyaltyProfile} (hq : db.profiles u = some q)
    (col : LoyaltyProfile → Option β) (v : Uuid) :
    ((db.apply (.updateProfile u p)).profiles v).bind col =
      if v = u then col p else (db.profiles v).bind col := by
  rw [profiles_updateProfile]
  by_cases hv : v = u
  · rw [if_pos hv, if_pos hv, hq]
    rfl
  · rw [if_neg hv, if_neg hv]

/-- A new profile has no entry in a nullable column. -/
theorem ensureProfile_column {β : Type} {col : LoyaltyProfile → Option β} (hcol : col {} = none)
    (u v : Uuid) : ((db.ensureProfile u).profiles v).bind col = (db.profiles v).bind col := by
  rw [ensureProfile_profiles]
  by_cases hv : v = u
  · rw [if_pos hv, hv]
    unfold DB.profileOrDefault
    cases db.profiles u with
    | none => exact hcol
    | some p => rfl
  · rw [if_neg hv]

/-- Whatever the profile's creation does not touch is as before. -/
theorem ensureProfile_eq {β : Type} {f : DB → β} (u : Uuid)
    (h : f (db.apply (.insertProfile u)) = f db) : f (db.ensureProfile u) = f db := by
  unfold DB.ensureProfile
  split
  · rfl
  · exact h

@[simp] theorem ensureProfile_processedEvents (u : Uuid) :
    (db.ensureProfile u).processedEvents = db.processedEvents :=
  ensureProfile_eq u rfl

@[simp] theorem ensureProfile_pointsTransactions (u : Uuid) :
    (db.ensureProfile u).pointsTransactions = db.pointsTransactions :=
  ensureProfile_eq u rfl

@[simp] theorem ensureProfile_ledgerOf (u v : Uuid) :
    (db.ensureProfile u).ledgerOf v = db.ledgerOf v :=
  ensureProfile_eq (f := fun x => x.ledgerOf v) u rfl

@[simp] theorem ensureProfile_checkoutDebits (u : Uuid) :
    (db.ensureProfile u).checkoutDebits = db.checkoutDebits :=
  ensureProfile_eq u rfl

@[simp] theorem ensureProfile_outboxOf (u v : Uuid) :
    (db.ensureProfile u).outboxOf v = db.outboxOf v :=
  ensureProfile_eq (f := fun x => x.outboxOf v) u rfl

@[simp] theorem ensureProfile_reservationsOf (u v : Uuid) :
    (db.ensureProfile u).reservationsOf v = db.reservationsOf v :=
  ensureProfile_eq (f := fun x => x.reservationsOf v) u rfl

@[simp] theorem ensureProfile_userBonusGrants (u : Uuid) :
    (db.ensureProfile u).userBonusGrants = db.userBonusGrants :=
  ensureProfile_eq u rfl

@[simp] theorem ensureProfile_reservations (u : Uuid) :
    (db.ensureProfile u).goldUpgradeReservations = db.goldUpgradeReservations :=
  ensureProfile_eq u rfl

@[simp] theorem ensureProfile_intents (u : Uuid) :
    (db.ensureProfile u).achievementDispatchIntents = db.achievementDispatchIntents :=
  ensureProfile_eq u rfl

@[simp] theorem ensureProfile_userAchievements (u : Uuid) :
    (db.ensureProfile u).userAchievements = db.userAchievements :=
  ensureProfile_eq u rfl

end

end CinemaLoyalty
