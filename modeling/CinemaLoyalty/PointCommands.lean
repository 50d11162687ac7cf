import CinemaLoyalty.Transaction

/-! @svc PointCommands | layer:model | source:src/loyalty/point-command-idempotency.ts, src/loyalty/loyalty.service.ts, src/loyalty/loyalty-expiration.service.ts

    The two idempotent money commands, `deductPoints` and `refundPoints`: parsing, the replay check,
    the claim of the key, and both transactions with every refusal in the order of the source. Each
    transaction has one effect lemma (`deductPointsTx_ok`, `refundPointsTx_ok`). -/

namespace CinemaLoyalty
open Txn

/-- A parsed command; user and order are values, so their case is already gone. -/
structure PointCommand where
  operation : PointOperation
  userId : Uuid
  orderId : Uuid
  amount : ℤ
  idempotencyKey : String
  deriving DecidableEq

/-- `PointCommandResult`. -/
structure PointCommandResult where
  success : Bool
  balanceAfter : ℤ
  errorMessage : String
  deriving DecidableEq

/-- A refusal. -/
def PointCommandResult.refused (balanceAfter : ℤ) (errorMessage : String) : PointCommandResult :=
  { success := false, balanceAfter, errorMessage }

/-- The response of a command that took effect. -/
def PointCommandResult.succeeded (balanceAfter : ℤ) : PointCommandResult :=
  { success := true, balanceAfter, errorMessage := "" }

/-- `parsePointCommand`. -/
def parsePointCommand (operation : PointOperation) (userId : String) (amount : ℤ) (orderId : String)
    (idempotencyKey : String) : Option PointCommand :=
  match Uuid.ofText userId, Uuid.ofText orderId with
  | some user, some order =>
    if zodUuid userId && zodUuid orderId && decide (0 < amount) && decide (amount ≤ 2147483647) &&
        decide (1 ≤ jsLength idempotencyKey) && decide (jsLength idempotencyKey ≤ 128) then
      some { operation, userId := user, orderId := order, amount, idempotencyKey }
    else none
  | _, _ => none

/-- What a recorded key answers to a command. -/
def replayOf (command : PointCommand) (existing : ProcessedEvent) : Tx PointCommandResult :=
  if existing.operation = none then
    .pure (.refused 0 ERROR_MESSAGES.LEGACY_IDEMPOTENCY)
  else if existing.operation ≠ some command.operation ∨ existing.userId ≠ some command.userId ∨
      existing.orderId ≠ some command.orderId ∨ existing.amount ≠ some command.amount then
    .pure (.refused 0 ERROR_MESSAGES.IDEMPOTENCY_CONFLICT)
  else
    match existing.balanceAfter with
    | none => .throw (.error "Point command result is missing")
    | some balanceAfter => .pure (.succeeded balanceAfter)

/-- `replayPointCommand`. -/
def replayPointCommand (command : PointCommand) : Tx (Option PointCommandResult) := do
  let existing ← Prog.call (.findEvent command.idempotencyKey)
  match existing with
  | none => return none
  | some existing => do
    let replay ← replayOf command existing
    return some replay

/-- The row that binds a key to a command and its response. -/
def PointCommand.record (command : PointCommand) (balanceAfter : ℤ) : ProcessedEvent where
  eventId := command.idempotencyKey
  operation := some command.operation
  userId := some command.userId
  orderId := some command.orderId
  amount := some command.amount
  balanceAfter := some balanceAfter

/-- `claimPointCommand`. -/
def claimPointCommand (command : PointCommand) (balanceAfter : ℤ) :
    Tx (Option PointCommandResult) := do
  let inserted ← Prog.call (.createManyEvent (command.record balanceAfter))
  if inserted = 1 then return none
  let replay ← replayPointCommand command
  match replay with
  | none => .throw (.error "Point command record disappeared during claim")
  | some replay => return some replay

/-- The transaction of `deductPoints`. `userId` and `orderId` are the texts of the request. -/
def deductPointsTx (command : PointCommand) (userId orderId : String) (now : Instant) :
    Tx PointCommandResult := do
  let profileLocked ← lockLoyaltyProfile command.userId
  let replay ← replayPointCommand command
  match replay with
  | some replay => return replay
  | none =>
    if command.amount < LOYALTY_RULES.MINIMUM_DEDUCTION then
      return .refused 0
        ("Minimum deduction is " ++ toString LOYALTY_RULES.MINIMUM_DEDUCTION ++ " points")
    let profile ← if profileLocked then Prog.call (.findProfile command.userId) else pure none
    match profile with
    | none =>
      .throw (.rpc .NOT_FOUND (ERROR_MESSAGES.PROFILE_NOT_FOUND ++ " " ++ userId))
    | some profile =>
      if profile.balance < command.amount then
        return .refused profile.balance ERROR_MESSAGES.INSUFFICIENT_POINTS
      let newBalance := profile.balance - command.amount
      let racedReplay ← claimPointCommand command newBalance
      match racedReplay with
      | some racedReplay => return racedReplay
      | none =>
        let _ ← Prog.call (.updateProfile command.userId fun p =>
          { p with balance := newBalance, lastActivityAt := some now })
        let debit ← Prog.call (.createTransaction
          { userId := command.userId
            type := .BURN_DISCOUNT
            points := -command.amount
            balanceAfter := newBalance
            orderId := some command.orderId
            description := "Redeemed " ++ toString command.amount ++ " pts for order " ++ orderId
            createdAt := now })
        Prog.call (.createDebit debit.id)
        return .succeeded newBalance

/-- The debits of an order: `BURN_DISCOUNT` rows with negative points. -/
def isDebitOf (orderId : Uuid) (t : PointsTransaction) : Bool :=
  t.orderId = some orderId && t.type = .BURN_DISCOUNT && decide (t.points < 0)

/-- The refunds of an order. -/
def isRefundOf (orderId : Uuid) (t : PointsTransaction) : Bool :=
  t.orderId = some orderId && t.type = .REFUND

/-- The transaction of `refundPoints`. -/
def refundPointsTx (command : PointCommand) (orderId : String) (now : Instant) :
    Tx PointCommandResult := do
  let profileLocked ← lockLoyaltyProfile command.userId
  let replay ← replayPointCommand command
  match replay with
  | some replay => return replay
  | none =>
    let profile ← if profileLocked then Prog.call (.findProfile command.userId) else pure none
    match profile with
    | none => return .refused 0 ERROR_MESSAGES.PROFILE_NOT_FOUND
    | some profile =>
      let debits ← Prog.call (.findTransactions command.userId (isDebitOf command.orderId))
      match debits with
      | [] => return .refused 0 ERROR_MESSAGES.REFUND_DEBIT_NOT_FOUND
      | _ :: _ :: _ => return .refused 0 ERROR_MESSAGES.REFUND_RECONCILIATION
      | [debit] =>
        let refunds ← Prog.call (.findTransactions command.userId (isRefundOf command.orderId))
        let checkout ← Prog.call (.findDebit debit.id)
        if refunds ≠ [] ∨ (checkout.bind (·.refundId)).isSome then
          return .refused 0 ERROR_MESSAGES.REFUND_ALREADY_COMPENSATED
        if checkout = none then return .refused 0 ERROR_MESSAGES.REFUND_RECONCILIATION
        if command.amount ≠ -debit.points then
          return .refused 0 ERROR_MESSAGES.REFUND_AMOUNT_MISMATCH
        let newBalance := profile.balance - debit.points
        let racedReplay ← claimPointCommand command newBalance
        match racedReplay with
        | some racedReplay => return racedReplay
        | none =>
          let _ ← Prog.call (.updateProfile command.userId fun p => { p with balance := newBalance })
          let refund ← Prog.call (.createTransaction
            { userId := command.userId
              type := .REFUND
              points := command.amount
              balanceAfter := newBalance
              orderId := some command.orderId
              description := "Refund for failed order " ++ orderId
              createdAt := now })
          let linked ← Prog.call (.linkDebit debit.id refund.id)
          if linked ≠ 1 then .throw (.error "Checkout compensation ownership changed")
          return .succeeded newBalance

/-- `deductPoints` as a whole: an invalid command never reaches the database. -/
def deductPoints (userId : String) (amount : ℤ) (orderId idempotencyKey : String) (now : Instant) :
    Tx PointCommandResult :=
  match parsePointCommand .DEDUCT userId amount orderId idempotencyKey with
  | none => .pure (.refused 0 ERROR_MESSAGES.INVALID_POINT_COMMAND)
  | some command => deductPointsTx command userId orderId now

/-- `refundPoints` as a whole. -/
def refundPoints (userId : String) (amount : ℤ) (orderId idempotencyKey : String) (now : Instant) :
    Tx PointCommandResult :=
  match parsePointCommand .REFUND userId amount orderId idempotencyKey with
  | none => .pure (.refused 0 ERROR_MESSAGES.INVALID_POINT_COMMAND)
  | some command => refundPointsTx command orderId now

/-- What `deductPoints` answers to a failed transaction: its own exceptions pass. -/
def deductPointsCatch : TxError → Except TxError PointCommandResult
  | .rpc code message => .error (.rpc code message)
  | _ => .ok (.refused 0 ERROR_MESSAGES.INTERNAL_ERROR)

/-- What `refundPoints` answers to a failed transaction. -/
def refundPointsCatch (_ : TxError) : Except TxError PointCommandResult :=
  .ok (.refused 0 ERROR_MESSAGES.INTERNAL_REFUND)

theorem parse_operation {operation : PointOperation} {userId orderId key : String} {amount : ℤ}
    {command : PointCommand} (h : parsePointCommand operation userId amount orderId key = some command) :
    command.operation = operation := by
  unfold parsePointCommand at h
  split at h
  · split at h
    · cases h; rfl
    · cases h
  · cases h

/-! ### The replay check -/

section replay
variable {α : Type} {db db' : DB} {command : PointCommand} {res : PointCommandResult}

/-- A recorded key is answered without another statement. -/
theorem replayOf_final (command : PointCommand) (e : ProcessedEvent) :
    (∃ r, replayOf command e = .pure r) ∨ ∃ err, replayOf command e = .throw err := by
  unfold replayOf
  split
  · exact .inl ⟨_, rfl⟩
  split
  · exact .inl ⟨_, rfl⟩
  cases e.balanceAfter with
  | none => exact .inr ⟨_, rfl⟩
  | some b => exact .inl ⟨_, rfl⟩

/-- The record of a command replays its response. -/
theorem replayOf_record (command : PointCommand) (b : ℤ) :
    replayOf command (command.record b) = .pure (.succeeded b) := by
  simp [replayOf, PointCommand.record]

/-- Any other command is refused by that record. -/
theorem replayOf_conflict {command other : PointCommand} (b : ℤ)
    (hk : other.idempotencyKey = command.idempotencyKey) (hne : other ≠ command) :
    replayOf other (command.record b) = .pure (.refused 0 ERROR_MESSAGES.IDEMPOTENCY_CONFLICT) := by
  have hdiff : command.operation ≠ other.operation ∨ command.userId ≠ other.userId ∨
      command.orderId ≠ other.orderId ∨ command.amount ≠ other.amount := by
    by_contra hall
    simp only [not_or, not_not] at hall
    obtain ⟨h₁, h₂, h₃, h₄⟩ := hall
    refine hne ?_
    cases other; cases command
    simp_all
  simp [replayOf, PointCommand.record, hdiff]

theorem run_replay (k : Option PointCommandResult → Tx α)
    (hk : isTextColumn command.idempotencyKey = true) :
    db.run (replayPointCommand command >>= k) =
      match db.processedEvents command.idempotencyKey with
      | none => db.run (k none)
      | some e => db.run (replayOf command e >>= fun r => k (some r)) := by
  unfold replayPointCommand
  simp only [Prog.call_bind, Prog.stmt_bind]
  rw [run_findEvent hk]
  cases db.processedEvents command.idempotencyKey with
  | none => rfl
  | some e => simp only [Prog.bind_assoc, Prog.pure_eq, Prog.pure_bind]

/-- A command whose key the column cannot hold fails at the replay check. -/
theorem run_replay_refused (k : Option PointCommandResult → Tx α)
    (hk : isTextColumn command.idempotencyKey = false) :
    db.run (replayPointCommand command >>= k) = .error (.prisma .P2039) := by
  unfold replayPointCommand
  simp only [Prog.call_bind, Prog.stmt_bind]
  exact run_findEvent_refused hk

theorem replay_ok {k : Option PointCommandResult → Tx α} {r : α × DB}
    (h : db.run (replayPointCommand command >>= k) = .ok r) :
    isTextColumn command.idempotencyKey = true := by
  cases hk : isTextColumn command.idempotencyKey with
  | false =>
    rw [run_replay_refused k hk] at h
    cases h
  | true => rfl

/-- A replayed answer comes from the record alone. -/
theorem run_replayOf {e : ProcessedEvent} (h : db.run (replayOf command e) = .ok (res, db')) :
    replayOf command e = .pure res ∧ db' = db := by
  rcases replayOf_final command e with ⟨r, hr⟩ | ⟨err, hr⟩
  · rw [hr, run_pure] at h
    cases h
    exact ⟨hr, rfl⟩
  · rw [hr, run_throw] at h
    cases h

/-- Claiming an unbound key binds it. -/
theorem claim_ok {b : ℤ} {k : Option PointCommandResult → Tx α} {r : α × DB}
    (hn : db.processedEvents command.idempotencyKey = none)
    (h : db.run (claimPointCommand command b >>= k) = .ok r) :
    (db.apply (.event (command.record b))).run (k none) = .ok r := by
  unfold claimPointCommand at h
  simp only [Prog.call_bind, Prog.stmt_bind] at h
  rcases createManyEvent_ok h with ⟨-, h⟩ | ⟨hs, -⟩
  · simpa only [if_true, Prog.pure_eq, Prog.pure_bind] using h
  · rw [show (command.record b).eventId = command.idempotencyKey from rfl, hn] at hs
    cases hs

end replay

/-! ### What the transactions do -/

/-- The ledger row of a deduction. -/
def PointCommand.debitRow (command : PointCommand) (seq : ℕ) (newBalance : ℤ) (orderId : String)
    (now : Instant) : PointsTransaction where
  seq
  userId := command.userId
  type := .BURN_DISCOUNT
  points := -command.amount
  balanceAfter := newBalance
  orderId := some command.orderId
  description := "Redeemed " ++ toString command.amount ++ " pts for order " ++ orderId
  createdAt := now

/-- The database after a successful deduction from profile `p`. -/
def DB.deducted (db : DB) (command : PointCommand) (p : LoyaltyProfile) (orderId : String)
    (now : Instant) : DB :=
  let newBalance := p.balance - command.amount
  let debit := command.debitRow (db.ledgerOf command.userId).length newBalance orderId now
  (((db.apply (.event (command.record newBalance))).apply
    (.updateProfile command.userId { p with balance := newBalance, lastActivityAt := some now })).apply
    (.transaction debit)).apply (.debit debit.id {})

/-- The ledger row of a refund. -/
def PointCommand.refundRow (command : PointCommand) (seq : ℕ) (newBalance : ℤ) (orderId : String)
    (now : Instant) : PointsTransaction where
  seq
  userId := command.userId
  type := .REFUND
  points := command.amount
  balanceAfter := newBalance
  orderId := some command.orderId
  description := "Refund for failed order " ++ orderId
  createdAt := now

/-- The database after a successful refund of `debit` to profile `p`. -/
def DB.refunded (db : DB) (command : PointCommand) (p : LoyaltyProfile) (debit : PointsTransaction)
    (orderId : String) (now : Instant) : DB :=
  let newBalance := p.balance - debit.points
  let refund := command.refundRow (db.ledgerOf command.userId).length newBalance orderId now
  (((db.apply (.event (command.record newBalance))).apply
    (.updateProfile command.userId { p with balance := newBalance })).apply
    (.transaction refund)).apply (.debit debit.id { refundId := some refund.id })

/-- The three ways a point command answers: from the record of its key, by refusing, or by taking
    effect as `effect` says. Only the last changes the database. -/
inductive Outcome (db : DB) (command : PointCommand) (effect : ℤ → DB → Prop) :
    PointCommandResult → DB → Prop
  | replayed {e : ProcessedEvent} {res : PointCommandResult}
      (hb : db.processedEvents command.idempotencyKey = some e)
      (hr : replayOf command e = .pure res) : Outcome db command effect res db
  | refused {b : ℤ} {message : String} (hn : db.processedEvents command.idempotencyKey = none) :
      Outcome db command effect (.refused b message) db
  | effective {b : ℤ} {db' : DB} (hn : db.processedEvents command.idempotencyKey = none)
      (he : effect b db') : Outcome db command effect (.succeeded b) db'

/-- The effect of a deduction. -/
def Deducts (db : DB) (command : PointCommand) (orderId : String) (now : Instant) (b : ℤ)
    (db' : DB) : Prop :=
  ∃ p, db.profiles command.userId = some p ∧ LOYALTY_RULES.MINIMUM_DEDUCTION ≤ command.amount ∧
    command.amount ≤ p.balance ∧ b = p.balance - command.amount ∧
    db' = db.deducted command p orderId now

/-- The effect of a refund: the one debit of the order, not yet compensated, is repaid in full. -/
def Refunds (db : DB) (command : PointCommand) (orderId : String) (now : Instant) (b : ℤ)
    (db' : DB) : Prop :=
  ∃ p debit, db.profiles command.userId = some p ∧
    (db.ledgerOf command.userId).filter (isDebitOf command.orderId) = [debit] ∧
    (db.ledgerOf command.userId).filter (isRefundOf command.orderId) = [] ∧
    db.checkoutDebits debit.id = some {} ∧ command.amount = -debit.points ∧
    b = p.balance - debit.points ∧ db' = db.refunded command p debit orderId now

section effects
variable {db db' : DB} {command : PointCommand} {res : PointCommandResult} {userId orderId : String}
  {now : Instant}

/-- A command that answers has a key that the column holds. -/
theorem deductPointsTx_key {r : PointCommandResult × DB}
    (h : db.run (deductPointsTx command userId orderId now) = .ok r) :
    isTextColumn command.idempotencyKey = true := by
  unfold deductPointsTx at h
  rw [run_lock] at h
  exact replay_ok h

theorem refundPointsTx_key {r : PointCommandResult × DB}
    (h : db.run (refundPointsTx command orderId now) = .ok r) :
    isTextColumn command.idempotencyKey = true := by
  unfold refundPointsTx at h
  rw [run_lock] at h
  exact replay_ok h

theorem deductPointsTx_ok (h : db.run (deductPointsTx command userId orderId now) = .ok (res, db')) :
    Outcome db command (Deducts db command orderId now) res db' := by
  unfold deductPointsTx at h
  rw [run_lock] at h
  rw [run_replay _ (replay_ok h)] at h
  cases hk : db.processedEvents command.idempotencyKey with
  | some e =>
    simp only [hk, Prog.pure_eq, Prog.bind_pure] at h
    obtain ⟨hr, rfl⟩ := run_replayOf h
    exact .replayed hk hr
  | none =>
    simp only [hk] at h
    split at h
    · cases h; exact .refused hk
    rename_i hmin
    cases hp : db.profiles command.userId with
    | none => simp [hp] at h
    | some p =>
      simp only [hp, Option.isSome_some, if_true, Prog.call_bind, run_findProfile] at h
      split at h
      · cases h; exact .refused hk
      rename_i hbal
      obtain ⟨q, hq, -, h⟩ := updateProfile_ok (claim_ok hk h)
      obtain ⟨t, rfl, -, h⟩ := createTransaction_ok h
      obtain ⟨-, h⟩ := createDebit_ok h
      simp only [profiles_other, Write.table, reduceCtorEq, not_false_eq_true, hp,
        Option.some.injEq] at hq
      subst hq
      cases h
      refine .effective hk ⟨p, hp, by omega, by omega, rfl, ?_⟩
      simp [DB.deducted, PointCommand.debitRow]

theorem refundPointsTx_ok (h : db.run (refundPointsTx command orderId now) = .ok (res, db')) :
    Outcome db command (Refunds db command orderId now) res db' := by
  unfold refundPointsTx at h
  rw [run_lock] at h
  rw [run_replay _ (replay_ok h)] at h
  cases hk : db.processedEvents command.idempotencyKey with
  | some e =>
    simp only [hk, Prog.pure_eq, Prog.bind_pure] at h
    obtain ⟨hr, rfl⟩ := run_replayOf h
    exact .replayed hk hr
  | none =>
    cases hp : db.profiles command.userId with
    | none =>
      simp only [hk, hp, Option.isSome_none, Bool.false_eq_true, if_false, Prog.pure_eq,
        Prog.pure_bind] at h
      cases h; exact .refused hk
    | some p =>
      simp only [hk, hp, Option.isSome_some, if_true, Prog.call_bind, run_findProfile,
        run_findTransactions] at h
      split at h
      · cases h; exact .refused hk
      · cases h; exact .refused hk
      rename_i debit hdebit
      simp only [run_findTransactions, run_findDebit] at h
      split at h
      · cases h; exact .refused hk
      rename_i hfree
      split at h
      · cases h; exact .refused hk
      rename_i hlisted
      split at h
      · cases h; exact .refused hk
      rename_i hamount
      obtain ⟨hrefunds, hunlinked⟩ := not_or.1 hfree
      obtain ⟨q, hq, -, h⟩ := updateProfile_ok (claim_ok hk h)
      obtain ⟨t, rfl, -, h⟩ := createTransaction_ok h
      rcases linkDebit_ok h with h | ⟨hd, h⟩
      · cases h
      simp only [profiles_other, checkoutDebits_other, Write.table, reduceCtorEq, not_false_eq_true,
        hp, Option.some.injEq] at hq hd
      subst hq
      cases h
      refine .effective hk ⟨p, debit, hp, hdebit, not_not.1 hrefunds, hd, not_not.1 hamount, rfl, ?_⟩
      simp [DB.refunded, PointCommand.refundRow]

end effects

end CinemaLoyalty
