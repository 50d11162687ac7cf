import CinemaLoyalty.Idempotency

/-! @svc Atomicity | layer:property | source:src/loyalty, src/prisma/profile-transaction.ts

    A command commits all of its rows or none. Its callback runs next to any other transactions:
    each statement may read another committed store, any statement and the commit may fail, and
    conflicts are retried. `CommitRows` lists the row versions a command commits when it takes
    effect; a refused command and one that throws publish nothing (`calls_all_or_nothing`). -/

namespace CinemaLoyalty
open Txn

/-- A committed attempt: what is left of its callback, over the row versions it wrote so far. -/
abbrev Commits (env : DB → Prop) {α : Type} (p : Tx α) (ws : List Write) (a : α)
    (pub : List Write) : Prop :=
  Attempt pg env p ws (.returned a) pub

/-! ### What each statement adds -/

section statements
variable {env : DB → Prop} {α : Type} {ws pub : List Write} {a : α}

/-- A read adds nothing and answers from some store. -/
theorem read_commits {β : Type} {s : Stmt β} {k : β → Tx α} {f : DB → β}
    (hs : ∀ db, pg.eval s db = .ok (f db, [])) (h : Commits env (.stmt s k) ws a pub) :
    ∃ db, env db ∧ Commits env (k (f (pg.view db ws))) ws a pub := by
  obtain ⟨db, b, ws', henv, he, h⟩ := attempt_stmt h
  rw [hs] at he
  cases he
  rw [List.append_nil] at h
  exact ⟨db, henv, h⟩

/-- A key with U+0000 ends the transaction, so a committed read of a key is a read. -/
theorem findEvent_commits {key : String} {k : Option ProcessedEvent → Tx α}
    (h : Commits env (.stmt (.findEvent key) k) ws a pub) :
    ∃ db, env db ∧ Commits env (k ((pg.view db ws).processedEvents key)) ws a pub := by
  obtain ⟨db, b, ws', henv, he, h⟩ := attempt_stmt h
  change DB.eval (pg.view db ws) (.findEvent key) = _ at he
  simp only [DB.eval] at he
  split at he
  · cases he
    rw [List.append_nil] at h
    exact ⟨db, henv, h⟩
  · cases he

theorem lock_commits {u : Uuid} {k : Bool → Tx α}
    (h : Commits env (lockLoyaltyProfile u >>= k) ws a pub) : ∃ b, Commits env (k b) ws a pub := by
  obtain ⟨_, -, h⟩ := read_commits (fun _ => rfl) h
  exact ⟨_, h⟩

/-- The row version of a creating lock: the profile, if it is not there. -/
def DB.opened (db : DB) (u : Uuid) : List Write :=
  if (db.profiles u).isSome then [] else [.insertProfile u]

theorem lock_create_commits {u : Uuid} {k : Bool → Tx α}
    (h : Commits env (lockLoyaltyProfile u true >>= k) [] a pub) :
    ∃ db b, env db ∧ Commits env (k b) (db.opened u) a pub := by
  obtain ⟨db, b, ws', henv, he, h⟩ := attempt_stmt h
  cases he
  obtain ⟨_, -, h⟩ := read_commits (fun _ => rfl) h
  exact ⟨db, _, henv, h⟩

theorem updateProfile_commits {u : Uuid} {data : LoyaltyProfile → LoyaltyProfile}
    {k : LoyaltyProfile → Tx α} (h : Commits env (.stmt (.updateProfile u data) k) ws a pub) :
    ∃ p, Commits env (k (data p)) (ws ++ [.updateProfile u (data p)]) a pub := by
  obtain ⟨db, b, ws', -, he, h⟩ := attempt_stmt h
  simp only [pg, DB.eval] at he
  (repeat' split at he) <;> cases he
  exact ⟨_, h⟩

theorem updateManyProfile_commits {u : Uuid} {c : LoyaltyProfile → Bool}
    {data : LoyaltyProfile → LoyaltyProfile} {k : ℕ → Tx α}
    (h : Commits env (.stmt (.updateManyProfile u c data) k) ws a pub) : ∃ db, env db ∧
      (((∀ p, (pg.view db ws).profiles u = some p → c p = false) ∧ Commits env (k 0) ws a pub) ∨
        ∃ p, (pg.view db ws).profiles u = some p ∧ c p = true ∧
          Commits env (k 1) (ws ++ [.updateProfile u (data p)]) a pub) := by
  obtain ⟨db, b, ws', henv, he, h⟩ := attempt_stmt h
  refine ⟨db, henv, ?_⟩
  generalize pg.view db ws = x at he ⊢
  simp only [pg, DB.eval] at he
  split at he
  · rename_i hp
    cases he
    exact .inl ⟨by simp [hp], by simpa using h⟩
  · rename_i p hp
    split at he
    · rename_i hc
      split at he
      · cases he
        exact .inr ⟨p, hp, hc, h⟩
      · cases he
    · rename_i hc
      cases he
      exact .inl ⟨by simpa [hp] using hc, by simpa using h⟩

theorem createEvent_commits {row : ProcessedEvent} {k : Unit → Tx α}
    (h : Commits env (.stmt (.createEvent row) k) ws a pub) :
    Commits env (k ()) (ws ++ [.event row]) a pub := by
  obtain ⟨db, b, ws', -, he, h⟩ := attempt_stmt h
  simp only [pg, DB.eval] at he
  (repeat' split at he) <;> cases he
  exact h

theorem createManyEvent_commits {row : ProcessedEvent} {k : ℕ → Tx α}
    (h : Commits env (.stmt (.createManyEvent row) k) ws a pub) :
    Commits env (k 1) (ws ++ [.event row]) a pub ∨ Commits env (k 0) ws a pub := by
  obtain ⟨db, b, ws', -, he, h⟩ := attempt_stmt h
  simp only [pg, DB.eval] at he
  split at he
  · cases he
  split at he
  · cases he
  simp only [Except.ok.injEq] at he
  split at he
  · cases he
    exact .inl h
  · cases he
    exact .inr (by simpa using h)

theorem createTransaction_commits {row : PointsTransaction} {k : PointsTransaction → Tx α}
    (h : Commits env (.stmt (.createTransaction row) k) ws a pub) :
    ∃ seq, Commits env (k { row with seq }) (ws ++ [.transaction { row with seq }]) a pub := by
  obtain ⟨db, b, ws', -, he, h⟩ := attempt_stmt h
  simp only [pg, DB.eval] at he
  (repeat' split at he) <;> cases he
  exact ⟨_, h⟩

theorem createDebit_commits {id : RowId} {k : Unit → Tx α}
    (h : Commits env (.stmt (.createDebit id) k) ws a pub) :
    Commits env (k ()) (ws ++ [.debit id {}]) a pub := by
  obtain ⟨db, b, ws', -, he, h⟩ := attempt_stmt h
  simp only [pg, DB.eval] at he
  split at he
  · cases he
  · cases he
    exact h

theorem linkDebit_commits {id refundId : RowId} {k : ℕ → Tx α}
    (h : Commits env (.stmt (.linkDebit id refundId) k) ws a pub) :
    Commits env (k 0) ws a pub ∨
      Commits env (k 1) (ws ++ [.debit id { refundId := some refundId }]) a pub := by
  obtain ⟨db, b, ws', -, he, h⟩ := attempt_stmt h
  simp only [pg, DB.eval] at he
  split at he
  · cases he
    exact .inl (by simpa using h)
  · simp only [Except.ok.injEq] at he
    split at he
    · cases he
      exact .inr h
    · cases he
      exact .inl (by simpa using h)

theorem createReservation_commits {row : GoldUpgradeReservation} {k : Unit → Tx α}
    (h : Commits env (.stmt (.createReservation row) k) ws a pub) :
    Commits env (k ()) (ws ++ [.reservation row]) a pub := by
  obtain ⟨db, b, ws', -, he, h⟩ := attempt_stmt h
  simp only [pg, DB.eval] at he
  split at he
  · cases he
  · cases he
    exact h

theorem releaseReservation_commits {u o : Uuid} {stamp : Instant} {k : Unit → Tx α}
    (h : Commits env (.stmt (.releaseReservation u o stamp) k) ws a pub) :
    Commits env (k ()) (ws ++ [.release u o stamp]) a pub := by
  obtain ⟨db, b, ws', -, he, h⟩ := attempt_stmt h
  simp only [pg, DB.eval] at he
  split at he
  · cases he
    exact h
  · cases he

theorem createOutbox_commits {row : OutboxEvent} {k : Unit → Tx α}
    (h : Commits env (.stmt (.createOutbox row) k) ws a pub) :
    ∃ seq, Commits env (k ()) (ws ++ [.outbox { row with seq }]) a pub := by
  obtain ⟨db, b, ws', -, he, h⟩ := attempt_stmt h
  cases he
  exact ⟨_, h⟩

end statements

/-! ### The rows of a command -/

/-- The calls that answer success, refuse, or throw. -/
def Call.isMutation : Call → Bool
  | .deductPoints .. | .refundPoints .. | .useGoldUpgrade .. | .rollbackGoldUpgrade ..
  | .modifyPointsGrpc .. | .grantVipStatusGrpc .. | .processTicketPurchase .. => true
  | _ => false

/-- The caller's answer to how the transaction of a call ended. -/
def Call.answer (c : Call) : Ended TxError Answer → Except TxError Answer
  | .returned a => .ok a
  | .raised _ e => c.recover e

/-- An answer `success: false`. -/
def Answer.refuses : Answer → Bool
  | .pointCommand r => !r.success
  | .gold r => !r.success
  | _ => false

/-- The call threw or answered `success: false`. -/
def Fails : Except TxError Answer → Prop
  | .error _ => True
  | .ok a => a.refuses = true

/-- The store has the record of an earlier call of the same command. An adjustment and a VIP grant
    are new every time. -/
def Call.Known (db : DB) (c : Call) : Prop :=
  match c with
  | .useGoldUpgrade userId orderId => db.ordered userId.value orderId.value ≠ []
  | .rollbackGoldUpgrade userId orderId =>
    ∃ r ∈ db.ordered userId.value orderId.value, r.releasedAt.isSome = true
  | .processTicketPurchase msg => (db.processedEvents msg.eventId.text).isSome = true
  | c => ∃ command, c.Issues command ∧ (db.processedEvents command.idempotencyKey).isSome = true

/-- The tier event, if the tier changed. -/
def announcement (userId : UuidText) (oldTier newTier : Tier) (seq : ℕ) (now : Instant) :
    List Write :=
  if newTier ≠ oldTier then [.outbox { tierUpgraded userId oldTier newTier now with seq }] else []

/-- The ledger row of a purchase, if it earned points. -/
def TicketPurchasedDto.award (msg : TicketPurchasedDto) (pointsEarned newBalance : ℤ) (seq : ℕ)
    (now : Instant) : List Write :=
  if pointsEarned > 0 then [.transaction { msg.earnedRow pointsEarned newBalance now with seq }]
  else []

/-- The intents that are not stored yet. -/
def DB.newIntents (db : DB) (u : Uuid) (rows : List (String × AchievementAction × Json)) :
    List Write :=
  (rows.filter fun r => (db.achievementDispatchIntents (u, r.1, r.2.1)).isNone).map
    fun r => .intent u r.1 r.2.1 ⟨r.2.2⟩

/-- The row versions a command commits when it takes effect, and its answer. `p` is the profile it
    decided on and `q` the profile it updated. -/
inductive CommitRows (env : DB → Prop) (now : Instant) : Call → Answer → List Write → Prop
  | deducted {userId orderId key : String} {amount : ℤ} {command : PointCommand} {db : DB}
      {p q : LoyaltyProfile} {b : ℤ} {seq : ℕ}
      (hparse : parsePointCommand .DEDUCT userId amount orderId key = some command)
      (hdb : env db) (hp : db.profiles command.userId = some p)
      (hb : b = p.balance - command.amount) :
      CommitRows env now (.deductPoints userId amount orderId key) (.pointCommand (.succeeded b))
        [.event (command.record b),
          .updateProfile command.userId { q with balance := b, lastActivityAt := some now },
          .transaction (command.debitRow seq b orderId now),
          .debit (command.debitRow seq b orderId now).id {}]
  | refunded {userId orderId key : String} {amount : ℤ} {command : PointCommand} {db db' : DB}
      {p q : LoyaltyProfile} {debit : PointsTransaction} {b : ℤ} {seq : ℕ}
      (hparse : parsePointCommand .REFUND userId amount orderId key = some command)
      (hdb : env db) (hp : db.profiles command.userId = some p)
      (hdb' : env db')
      (hdebit : (db'.ledgerOf command.userId).filter (isDebitOf command.orderId) = [debit])
      (hamount : command.amount = -debit.points) (hb : b = p.balance - debit.points) :
      CommitRows env now (.refundPoints userId amount orderId key) (.pointCommand (.succeeded b))
        [.event (command.record b), .updateProfile command.userId { q with balance := b },
          .transaction (command.refundRow seq b orderId now),
          .debit debit.id { refundId := some (command.refundRow seq b orderId now).id }]
  | used {userId orderId : UuidText} {q : LoyaltyProfile} :
      CommitRows env now (.useGoldUpgrade userId orderId) (.gold { success := true })
        [.reservation (reservationRow userId orderId now),
          .updateProfile userId.value { q with goldUpgradeUsedMonth := some (getUtcMonthKey now) }]
  | released {userId orderId : UuidText} {db db' : DB} {r : GoldUpgradeReservation} (hdb : env db)
      (hr : (db.ordered userId.value orderId.value).head? = some r) (hdb' : env db')
      (hkeep : ∀ q, db'.profiles userId.value = some q → q.goldUpgradeUsedMonth ≠ some r.month) :
      CommitRows env now (.rollbackGoldUpgrade userId orderId) (.gold { success := true })
        [.release userId.value orderId.value now]
  | cleared {userId orderId : UuidText} {db db' : DB} {r : GoldUpgradeReservation}
      {q : LoyaltyProfile} (hdb : env db)
      (hr : (db.ordered userId.value orderId.value).head? = some r) (hdb' : env db')
      (hq : db'.profiles userId.value = some q) (hmonth : q.goldUpgradeUsedMonth = some r.month) :
      CommitRows env now (.rollbackGoldUpgrade userId orderId) (.gold { success := true })
        [.release userId.value orderId.value now,
          .updateProfile userId.value { q with goldUpgradeUsedMonth := none }]
  | adjusted {userId : UuidText} {adminId reason : String} {points : ℤ} {db db' : DB}
      {p q : LoyaltyProfile} {seq seq' : ℕ} (hdb : env db) (hdb' : env db')
      (hp : p = db'.profileOrDefault userId.value) :
      CommitRows env now (.modifyPointsGrpc userId adminId points reason)
        (.modified
          { userId := userId.value
            tier := p.adjustTier points
            balance := q.balance + points })
        (db.opened userId.value ++
          [.updateProfile userId.value (q.adjust points (p.adjustTier points) now),
            .transaction
              { adjustmentRow userId adminId points reason (q.balance + points) now with seq }] ++
          announcement userId p.tier (p.adjustTier points) seq' now)
  | vipGranted {userId : UuidText} {adminId reason : String} {db db' : DB} {p q : LoyaltyProfile}
      {seq seq' : ℕ} (hdb : env db) (hdb' : env db') (hp : p = db'.profileOrDefault userId.value)
      (hgold : p.tier ≠ .GOLD) :
      CommitRows env now (.grantVipStatusGrpc userId adminId reason)
        (.vip { userId := userId.value, newTier := .GOLD })
        (db.opened userId.value ++
          [.updateProfile userId.value { q with tier := .GOLD },
            .transaction { vipRow userId adminId reason q.balance now with seq },
            .outbox { tierUpgraded userId p.tier .GOLD now with seq := seq' }])
  | purchased {msg : TicketPurchasedDto} {db db' db'' stored : DB} {p q : LoyaltyProfile} {n : ℤ}
      {rows : List (String × AchievementAction × Json)} {seq seq' : ℕ} (hdb : env db)
      (hdb' : env db') (hp : p = db'.profileOrDefault msg.userId.value) (hdb'' : env db'')
      (hn : n = pointsEarnedFor msg p (db''.pointsUsedFor msg) now)
      (hrows : intentRows (purchaseEvents msg (db''.pointsUsedFor msg)) = .pure rows)
      (hstored : env stored) :
      CommitRows env now (.processTicketPurchase msg) .done
        (db.opened msg.userId.value ++
          [.updateProfile msg.userId.value (p.purchase n (p.purchaseTier n) now q)] ++
          msg.award n (p.balance + n) seq now ++ [.event { eventId := msg.eventId.text }] ++
          announcement msg.userId p.tier (p.purchaseTier n) seq' now ++
          stored.newIntents msg.userId.value rows)

/-- How a committed command ends: it refused and wrote nothing, it had a record, or it commits all
    of its rows. -/
inductive Committed (env : DB → Prop) (now : Instant) (c : Call) : Answer → List Write → Prop
  | refused {a : Answer} (ha : a.refuses = true) : Committed env now c a []
  | known {a : Answer} {pub : List Write} {db : DB} (henv : env db) (hk : c.Known db)
      (hpub : a.refuses = true → pub = []) : Committed env now c a pub
  | complete {a : Answer} {pub : List Write} (h : CommitRows env now c a pub) :
      Committed env now c a pub

/-! ### Point commands -/

section commands
variable {env : DB → Prop} {α : Type} {ws pub : List Write} {a : α} {now : Instant}
  {command : PointCommand}

theorem replay_commits {k : Option PointCommandResult → Tx α}
    (h : Commits env (replayPointCommand command >>= k) [] a pub) : ∃ db, env db ∧
      (Commits env (k none) [] a pub ∨
        ∃ res, (db.processedEvents command.idempotencyKey).isSome = true ∧
          Commits env (k (some res)) [] a pub) := by
  unfold replayPointCommand at h
  simp only [Prog.call_bind, Prog.stmt_bind] at h
  obtain ⟨db, henv, h⟩ := findEvent_commits h
  refine ⟨db, henv, ?_⟩
  rw [view_nil] at h
  cases hk : db.processedEvents command.idempotencyKey with
  | none =>
    simp only [hk] at h
    exact .inl h
  | some e =>
    simp only [hk, Prog.bind_assoc] at h
    rcases replayOf_final command e with ⟨res, hr⟩ | ⟨err, hr⟩
    · rw [hr] at h
      exact .inr ⟨res, rfl, h⟩
    · rw [hr] at h
      exact absurd h attempt_throw

/-- A claim binds the key, or it lost and the record answers. -/
theorem claim_commits {b : ℤ} {k : Option PointCommandResult → Tx α}
    (h : Commits env (claimPointCommand command b >>= k) [] a pub) :
    Commits env (k none) [.event (command.record b)] a pub ∨
      ∃ db res, env db ∧ (db.processedEvents command.idempotencyKey).isSome = true ∧
        Commits env (k (some res)) [] a pub := by
  unfold claimPointCommand at h
  simp only [Prog.call_bind, Prog.stmt_bind] at h
  rcases createManyEvent_commits h with h | h
  · exact .inl h
  · simp only [zero_ne_one, if_false, Prog.bind_assoc] at h
    obtain ⟨db, henv, h | ⟨res, hk, h⟩⟩ := replay_commits h
    · exact absurd h attempt_throw
    · exact .inr ⟨db, res, henv, hk, h⟩

/-- The profile of a point command: not there, or as some store has it. -/
theorem profile_commits {u : Uuid} {locked : Bool} {k : Option LoyaltyProfile → Tx α}
    (h : Commits env (if locked = true then .stmt (.findProfile u) k else pure none >>= k) []
      a pub) :
    Commits env (k none) [] a pub ∨
      ∃ db p, env db ∧ db.profiles u = some p ∧ Commits env (k (some p)) [] a pub := by
  split at h
  · obtain ⟨db, henv, h⟩ := read_commits (fun _ => rfl) h
    rw [view_nil] at h
    cases hp : db.profiles u with
    | none =>
      rw [hp] at h
      exact .inl h
    | some p =>
      rw [hp] at h
      exact .inr ⟨db, p, henv, hp, h⟩
  · exact .inl h

theorem deductPoints_commits {userId orderId key : String} {amount : ℤ} {res : PointCommandResult}
    (h : Commits env (deductPoints userId amount orderId key now) [] res pub) :
    Committed env now (.deductPoints userId amount orderId key) (.pointCommand res) pub := by
  unfold deductPoints at h
  split at h
  · obtain ⟨rfl, rfl⟩ := attempt_pure h
    exact .refused rfl
  rename_i command hparse
  unfold deductPointsTx at h
  simp only [Prog.call_bind] at h
  obtain ⟨locked, h⟩ := lock_commits h
  obtain ⟨db, henv, h | ⟨res, hk, h⟩⟩ := replay_commits h
  swap
  · obtain ⟨rfl, rfl⟩ := attempt_pure h
    exact .known henv ⟨command, hparse, hk⟩ fun _ => rfl
  simp only at h
  split at h
  · obtain ⟨rfl, rfl⟩ := attempt_pure h
    exact .refused rfl
  rcases profile_commits h with h | ⟨db', p, henv', hp, h⟩
  · exact absurd h attempt_throw
  simp only at h
  split at h
  · obtain ⟨rfl, rfl⟩ := attempt_pure h
    exact .refused rfl
  rcases claim_commits h with h | ⟨db'', res, henv'', hk, h⟩
  swap
  · obtain ⟨rfl, rfl⟩ := attempt_pure h
    exact .known henv'' ⟨command, hparse, hk⟩ fun _ => rfl
  obtain ⟨q, h⟩ := updateProfile_commits h
  obtain ⟨seq, h⟩ := createTransaction_commits h
  replace h := createDebit_commits h
  obtain ⟨rfl, rfl⟩ := attempt_pure h
  exact .complete (.deducted hparse henv' hp rfl)

theorem refundPoints_commits {userId orderId key : String} {amount : ℤ} {res : PointCommandResult}
    (h : Commits env (refundPoints userId amount orderId key now) [] res pub) :
    Committed env now (.refundPoints userId amount orderId key) (.pointCommand res) pub := by
  unfold refundPoints at h
  split at h
  · obtain ⟨rfl, rfl⟩ := attempt_pure h
    exact .refused rfl
  rename_i command hparse
  unfold refundPointsTx at h
  simp only [Prog.call_bind] at h
  obtain ⟨locked, h⟩ := lock_commits h
  obtain ⟨db, henv, h | ⟨res, hk, h⟩⟩ := replay_commits h
  swap
  · obtain ⟨rfl, rfl⟩ := attempt_pure h
    exact .known henv ⟨command, hparse, hk⟩ fun _ => rfl
  simp only at h
  rcases profile_commits h with h | ⟨db', p, henv', hp, h⟩
  · obtain ⟨rfl, rfl⟩ := attempt_pure h
    exact .refused rfl
  obtain ⟨db'', henv'', h⟩ := read_commits (fun _ => rfl) h
  split at h
  · obtain ⟨rfl, rfl⟩ := attempt_pure h
    exact .refused rfl
  · obtain ⟨rfl, rfl⟩ := attempt_pure h
    exact .refused rfl
  rename_i debit hdebit
  obtain ⟨_, -, h⟩ := read_commits (fun _ => rfl) h
  obtain ⟨_, -, h⟩ := read_commits (fun _ => rfl) h
  split at h
  · obtain ⟨rfl, rfl⟩ := attempt_pure h
    exact .refused rfl
  split at h
  · obtain ⟨rfl, rfl⟩ := attempt_pure h
    exact .refused rfl
  split at h
  · obtain ⟨rfl, rfl⟩ := attempt_pure h
    exact .refused rfl
  rename_i hamount
  rcases claim_commits h with h | ⟨db₃, res, henv₃, hk, h⟩
  swap
  · obtain ⟨rfl, rfl⟩ := attempt_pure h
    exact .known henv₃ ⟨command, hparse, hk⟩ fun _ => rfl
  obtain ⟨q, h⟩ := updateProfile_commits h
  obtain ⟨seq, h⟩ := createTransaction_commits h
  rcases linkDebit_commits h with h | h
  · exact absurd h attempt_throw
  · obtain ⟨rfl, rfl⟩ := attempt_pure h
    exact .complete (.refunded hparse henv' hp henv'' hdebit (not_not.1 hamount) rfl)

/-! ### Gold upgrades -/

variable {userId orderId : UuidText} {res : GoldUpgradeResult}

theorem useGoldUpgrade_commits (h : Commits env (useGoldUpgradeTx userId orderId now) [] res pub) :
    Committed env now (.useGoldUpgrade userId orderId) (.gold res) pub := by
  unfold useGoldUpgradeTx at h
  simp only [Prog.call_bind] at h
  obtain ⟨locked, h⟩ := lock_commits h
  split at h
  · exact absurd h attempt_throw
  obtain ⟨_, -, h⟩ := read_commits (fun _ => rfl) h
  split at h
  · exact absurd h attempt_throw
  obtain ⟨db, henv, h⟩ := read_commits (fun _ => rfl) h
  split at h
  · rename_i r hr
    have hk : db.ordered userId.value orderId.value ≠ [] :=
      List.ne_nil_of_mem (List.mem_of_head? hr)
    split at h
    · obtain ⟨rfl, rfl⟩ := attempt_pure h
      exact .known henv hk fun _ => rfl
    · obtain ⟨rfl, rfl⟩ := attempt_pure h
      exact .known henv hk fun _ => rfl
  split at h
  · obtain ⟨rfl, rfl⟩ := attempt_pure h
    exact .refused rfl
  obtain ⟨_, -, h⟩ := read_commits (fun _ => rfl) h
  split at h
  · obtain ⟨rfl, rfl⟩ := attempt_pure h
    exact .refused rfl
  obtain ⟨q, h⟩ := updateProfile_commits (createReservation_commits h)
  obtain ⟨rfl, rfl⟩ := attempt_pure h
  exact .complete .used

theorem rollbackGoldUpgrade_commits
    (h : Commits env (rollbackGoldUpgradeTx userId orderId now) [] res pub) :
    Committed env now (.rollbackGoldUpgrade userId orderId) (.gold res) pub := by
  unfold rollbackGoldUpgradeTx at h
  simp only [Prog.call_bind] at h
  obtain ⟨locked, h⟩ := lock_commits h
  split at h
  · obtain ⟨rfl, rfl⟩ := attempt_pure h
    exact .refused rfl
  obtain ⟨db, henv, h⟩ := read_commits (fun _ => rfl) h
  split at h
  · obtain ⟨rfl, rfl⟩ := attempt_pure h
    exact .refused rfl
  rename_i r hr
  split at h
  · rename_i hclosed
    obtain ⟨rfl, rfl⟩ := attempt_pure h
    exact .known henv ⟨r, List.mem_of_head? hr, hclosed⟩ fun _ => rfl
  obtain ⟨db', henv', ⟨hkeep, h⟩ | ⟨q, hq, hclear, h⟩⟩ :=
    updateManyProfile_commits (releaseReservation_commits h)
  · obtain ⟨rfl, rfl⟩ := attempt_pure h
    exact .complete (.released henv hr henv' fun q hq => by simpa using hkeep q hq)
  · obtain ⟨rfl, rfl⟩ := attempt_pure h
    exact .complete (.cleared henv hr henv' hq (by simpa using hclear))

/-! ### Commands that create the profile -/

theorem announce_commits {oldTier newTier : Tier} {k : Unit → Tx α}
    (h : Commits env (announceTier userId oldTier newTier now >>= k) ws a pub) : ∃ seq,
      Commits env (k ()) (ws ++ announcement userId oldTier newTier seq now) a pub := by
  unfold announceTier at h
  unfold announcement
  split at h
  · rename_i hne
    obtain ⟨seq, h⟩ := createOutbox_commits h
    exact ⟨seq, by rwa [if_pos hne]⟩
  · rename_i heq
    exact ⟨0, by rwa [if_neg heq, List.append_nil]⟩

/-- The profile a creating command reads. -/
theorem opened_profile {db db' : DB} {u : Uuid} {p : LoyaltyProfile}
    (hp : (pg.view db' (db.opened u)).profiles u = some p) : p = db'.profileOrDefault u := by
  unfold DB.profileOrDefault
  unfold DB.opened at hp
  split at hp
  · rw [view_nil] at hp
    rw [hp, Option.getD_some]
  · rw [view_one, profiles_insertProfile, if_pos rfl] at hp
    cases hdb : db'.profiles u with
    | none => simpa [hdb] using hp.symm
    | some q => simpa [hdb] using hp.symm

/-- What the profile's creation does not touch reads as before. -/
theorem view_opened {β : Type} {f : DB → β} {db db' : DB} {u : Uuid}
    (h : ∀ x : DB, f (x.apply (.insertProfile u)) = f x) :
    f (pg.view db' (db.opened u)) = f db' := by
  unfold DB.opened
  split
  · rfl
  · exact h db'

theorem modifyPoints_commits {adminId reason : String} {points : ℤ} {res : ModifyPointsResult}
    (h : Commits env (modifyPointsGrpc userId adminId points reason now) [] res pub) :
    Committed env now (.modifyPointsGrpc userId adminId points reason) (.modified res) pub := by
  unfold modifyPointsGrpc at h
  split at h
  · exact absurd h attempt_throw
  unfold modifyPointsTx at h
  simp only [Prog.call_bind] at h
  obtain ⟨db, _, hdb, h⟩ := lock_create_commits h
  obtain ⟨db', hdb', h⟩ := read_commits (fun _ => rfl) h
  split at h
  · exact absurd h attempt_throw
  rename_i p hp
  split at h
  · exact absurd h attempt_throw
  obtain ⟨q, h⟩ := updateProfile_commits h
  obtain ⟨seq, h⟩ := createTransaction_commits h
  obtain ⟨seq', h⟩ := announce_commits h
  obtain ⟨rfl, rfl⟩ := attempt_pure h
  rw [adjust_balance, adjust_tier, List.append_assoc (db.opened userId.value)]
  exact .complete (.adjusted hdb hdb' (opened_profile hp))

theorem grantVipStatus_commits {adminId reason : String} {res : GrantVipStatusResult}
    (h : Commits env (grantVipStatusGrpc userId adminId reason now) [] res pub) :
    Committed env now (.grantVipStatusGrpc userId adminId reason) (.vip res) pub := by
  unfold grantVipStatusGrpc at h
  simp only [Prog.call_bind] at h
  obtain ⟨db, _, hdb, h⟩ := lock_create_commits h
  obtain ⟨db', hdb', h⟩ := read_commits (fun _ => rfl) h
  split at h
  · exact absurd h attempt_throw
  rename_i p hp
  split at h
  · exact absurd h attempt_throw
  rename_i hgold
  obtain ⟨q, h⟩ := updateProfile_commits h
  obtain ⟨seq, h⟩ := createTransaction_commits h
  obtain ⟨seq', h⟩ := createOutbox_commits h
  obtain ⟨rfl, rfl⟩ := attempt_pure h
  rw [List.append_assoc (db.opened userId.value), List.append_assoc (db.opened userId.value)]
  exact .complete (.vipGranted hdb hdb' (opened_profile hp) hgold)

variable {msg : TicketPurchasedDto}

theorem resolvePointsUsed_commits {db : DB} {k : ℤ → Tx α} (hdb : env db)
    (h : Commits env (resolvePointsUsedForOrder msg >>= k) (db.opened msg.userId.value) a pub) :
    ∃ db', env db' ∧
      Commits env (k (db'.pointsUsedFor msg)) (db.opened msg.userId.value) a pub := by
  unfold resolvePointsUsedForOrder at h
  unfold DB.pointsUsedFor
  cases hused : msg.pointsUsed with
  | value q =>
    simp only [hused] at h
    exact ⟨db, hdb, h⟩
  | null =>
    simp only [hused] at h
    exact ⟨db, hdb, h⟩
  | absent =>
    simp only [hused, Prog.call_bind] at h
    obtain ⟨db', hdb', h⟩ := read_commits (fun _ => rfl) h
    rw [view_opened (f := fun x => (x.ledgerOf msg.userId.value).filter _) fun _ => rfl] at h
    exact ⟨db', hdb', h⟩

theorem assert_commits {n : ℤ} {k : Unit → Tx α}
    (h : Commits env (assertAccountingInteger n >>= k) ws a pub) : Commits env (k ()) ws a pub := by
  unfold assertAccountingInteger at h
  split at h
  · exact h
  · exact absurd h attempt_throw

theorem assertPurchaseRange_commits {p : LoyaltyProfile} {n : ℤ} {k : Unit → Tx α}
    (h : Commits env (assertPurchaseRange p n >>= k) ws a pub) : Commits env (k ()) ws a pub := by
  unfold assertPurchaseRange at h
  simp only [Prog.bind_assoc] at h
  replace h := assert_commits (assert_commits h)
  split at h
  · simp only [Prog.bind_assoc] at h
    exact assert_commits (assert_commits (assert_commits h))
  · exact h

theorem recordEarned_commits {n b : ℤ} {k : Unit → Tx α}
    (h : Commits env (recordEarned msg n b now >>= k) ws a pub) :
    ∃ seq, Commits env (k ()) (ws ++ msg.award n b seq now) a pub := by
  unfold recordEarned at h
  unfold TicketPurchasedDto.award
  split at h
  · rename_i hn
    simp only [Prog.call_bind] at h
    obtain ⟨seq, h⟩ := createTransaction_commits h
    exact ⟨seq, by rwa [if_pos hn]⟩
  · rename_i hn
    exact ⟨0, by rwa [if_neg hn, List.append_nil]⟩

theorem saveIntents_commits {u : Uuid} {events : List ActionEvent} {r : Unit}
    (hws : ∀ w ∈ ws, w.table ≠ .intents)
    (h : Commits env (saveDispatchIntents u events) ws r pub) :
    ∃ rows stored, intentRows events = .pure rows ∧ env stored ∧
      pub = ws ++ stored.newIntents u rows := by
  unfold saveDispatchIntents at h
  rcases intentRows_final events with ⟨rows, hr⟩ | ⟨e, hr⟩
  · rw [hr, Prog.pure_bind] at h
    obtain ⟨stored, b, ws', henv, he, h⟩ := attempt_stmt h
    change DB.eval (pg.view stored ws) (.createManyIntents u rows) = _ at he
    simp only [DB.eval] at he
    split at he
    · cases he
    cases he
    obtain ⟨-, rfl⟩ := attempt_pure h
    refine ⟨rows, stored, hr, henv, ?_⟩
    unfold DB.newIntents
    rw [view_unchanged (f := DB.achievementDispatchIntents) fun w hw x => intents_other (hws w hw)]
  · rw [hr] at h
    exact absurd h attempt_throw

/-- Before its intents a purchase writes none. -/
theorem written_no_intents {db : DB} {u : Uuid} {row : LoyaltyProfile} {n b : ℤ} {seq seq' : ℕ}
    {e : ProcessedEvent} {oldTier newTier : Tier} :
    ∀ w ∈ db.opened u ++ [.updateProfile u row] ++ msg.award n b seq now ++ [.event e] ++
      announcement userId oldTier newTier seq' now, w.table ≠ .intents := by
  unfold DB.opened TicketPurchasedDto.award announcement
  intro w hw
  simp only [List.mem_append, List.mem_singleton] at hw
  rcases hw with (((hw | rfl) | hw) | rfl) | hw
  · split at hw <;> simp_all
  · simp
  · split at hw <;> simp_all
  · simp
  · split at hw <;> simp_all

theorem processTicketPurchase_commits {r : Unit}
    (h : Commits env (processTicketPurchase msg now) [] r pub) :
    Committed env now (.processTicketPurchase msg) .done pub := by
  unfold processTicketPurchase at h
  simp only [Prog.call_bind] at h
  obtain ⟨db, _, hdb, h⟩ := lock_create_commits h
  obtain ⟨db₁, hdb₁, h⟩ := findEvent_commits h
  rw [view_opened (f := fun x => x.processedEvents msg.eventId.text) fun _ => rfl] at h
  split at h
  · rename_i e he
    split at h
    · exact absurd h attempt_throw
    · exact .known hdb₁ (by simp [Call.Known, he]) fun h => absurd h Bool.false_ne_true
  obtain ⟨db', hdb', h⟩ := read_commits (fun _ => rfl) h
  split at h
  · exact absurd h attempt_throw
  rename_i p hp
  obtain ⟨db'', hdb'', h⟩ := resolvePointsUsed_commits hdb h
  replace h := assertPurchaseRange_commits h
  obtain ⟨q, h⟩ := updateProfile_commits h
  obtain ⟨seq, h⟩ := recordEarned_commits h
  obtain ⟨seq', h⟩ := announce_commits (createEvent_commits h)
  obtain ⟨rows, stored, hrows, hstored, rfl⟩ := saveIntents_commits written_no_intents h
  exact .complete (.purchased hdb hdb' (opened_profile hp) hdb'' rfl hrows hstored)

end commands

/-! ### Commands -/

section calls
variable {env : DB → Prop} {c : Call} {now : Instant} {a : Answer} {pub : List Write}

theorem wrap_commits {β : Type} {p : Tx β} {f : β → Answer}
    (h : Commits env (p >>= fun r => .pure (f r)) [] a pub) :
    ∃ r, Commits env p [] r pub ∧ a = f r := by
  obtain ⟨r, mid, hp, h⟩ := attempt_bind h
  obtain ⟨rfl, rfl⟩ := attempt_pure h
  exact ⟨r, hp, rfl⟩

theorem call_commits (hc : c.isMutation = true) (h : Commits env (c.tx now) [] a pub) :
    Committed env now c a pub := by
  cases c with
  | deductPoints userId amount orderId key =>
    obtain ⟨r, hr, rfl⟩ := wrap_commits (p := deductPoints userId amount orderId key now) h
    exact deductPoints_commits hr
  | refundPoints userId amount orderId key =>
    obtain ⟨r, hr, rfl⟩ := wrap_commits (p := refundPoints userId amount orderId key now) h
    exact refundPoints_commits hr
  | processTicketPurchase msg =>
    obtain ⟨r, hr, rfl⟩ := wrap_commits (p := processTicketPurchase msg now) h
    exact processTicketPurchase_commits hr
  | modifyPointsGrpc userId adminId points reason =>
    obtain ⟨r, hr, rfl⟩ := wrap_commits (p := modifyPointsGrpc userId adminId points reason now) h
    exact modifyPoints_commits hr
  | grantVipStatusGrpc userId adminId reason =>
    obtain ⟨r, hr, rfl⟩ := wrap_commits (p := grantVipStatusGrpc userId adminId reason now) h
    exact grantVipStatus_commits hr
  | useGoldUpgrade userId orderId =>
    obtain ⟨r, hr, rfl⟩ := wrap_commits (p := useGoldUpgradeTx userId orderId now) h
    exact useGoldUpgrade_commits hr
  | rollbackGoldUpgrade userId orderId =>
    obtain ⟨r, hr, rfl⟩ := wrap_commits (p := rollbackGoldUpgradeTx userId orderId now) h
    exact rollbackGoldUpgrade_commits hr
  | _ => cases hc

/-- Commands that take effect answer success. -/
theorem rows_succeed (h : CommitRows env now c a pub) : a.refuses = false := by
  cases h <;> rfl

/-- A refusal is committed without a row. -/
theorem committed_refuses (h : Committed env now c a pub) (ha : a.refuses = true) : pub = [] := by
  cases h with
  | refused _ => rfl
  | known _ _ hpub => exact hpub ha
  | complete h => rw [rows_succeed h] at ha; cases ha

/-- A success without a record is committed with all of its rows. -/
theorem committed_succeeds (h : Committed env now c a pub) (ha : a.refuses = false)
    (hnew : ∀ db, env db → ¬c.Known db) : CommitRows env now c a pub := by
  cases h with
  | refused hr => rw [hr] at ha; cases ha
  | known henv hk _ => exact absurd hk (hnew _ henv)
  | complete h => exact h

/-- No catch clause of a command answers success. -/
theorem recover_refuses {e : TxError} (hc : c.isMutation = true) (h : c.recover e = .ok a) :
    a.refuses = true := by
  cases c with
  | deductPoints userId amount orderId key =>
    cases e <;> first | cases h; rfl | cases h
  | refundPoints userId amount orderId key => cases h; rfl
  | modifyPointsGrpc userId adminId points reason => cases e <;> cases h
  | useGoldUpgrade userId orderId => cases e <;> cases h
  | rollbackGoldUpgrade userId orderId => cases h; rfl
  | processTicketPurchase msg => cases h
  | grantVipStatusGrpc userId adminId reason => cases h
  | _ => cases hc

/-- Whatever the other transactions commit meanwhile, whichever statement fails and however often a
    conflict is retried: a command that refuses or throws leaves every table as it was, and one that
    answers success, when no store it read had its record, commits all of its rows together. -/
theorem calls_all_or_nothing (hc : c.isMutation = true) (clock : ℕ → Instant)
    {ended : Ended TxError Answer}
    (h : withTransactionRetry env (fun n => c.tx (clock n)) ended pub) :
    (Fails (c.answer ended) → ∀ db, pg.view db pub = db) ∧
      (c.answer ended = .ok a → a.refuses = false → (∀ db, env db → ¬c.Known db) →
        ∃ m, CommitRows env (clock m) c a pub) := by
  cases ended with
  | raised conflict e =>
    obtain rfl := retry_raised h rfl
    refine ⟨fun _ db => rfl, fun ha hsucc _ => ?_⟩
    rw [recover_refuses hc ha] at hsucc
    cases hsucc
  | returned a' =>
    obtain ⟨m, hm⟩ := retry_returned h rfl
    have hcommit := call_commits hc hm
    refine ⟨fun hfail db => ?_, fun ha hsucc hnew => ?_⟩
    · rw [committed_refuses hcommit hfail, view_nil]
    · cases ha
      exact ⟨m, committed_succeeds hcommit hsucc hnew⟩

end calls

theorem calls_all_or_nothing_hundred :
    ∃ pub, withTransactionRetry (· = DB.funded) (fun _ => deductHundred.tx 0)
        (.returned (.pointCommand (.succeeded 100))) pub ∧
      CommitRows (· = DB.funded) 0 deductHundred (.pointCommand (.succeeded 100)) pub := by
  obtain ⟨pub, h, -⟩ := retry_alone.1
    (show DB.funded.transaction (deductHundred.tx 0) =
      (.ok (.pointCommand (.succeeded 100)), _) from rfl)
  have hnew : ∀ db, db = DB.funded → ¬deductHundred.Known db := by
    rintro db rfl ⟨command, -, hk⟩
    cases hk
  obtain ⟨m, hrows⟩ := (calls_all_or_nothing rfl (fun _ => 0) h).2 rfl rfl hnew
  exact ⟨pub, h, hrows⟩

end CinemaLoyalty
