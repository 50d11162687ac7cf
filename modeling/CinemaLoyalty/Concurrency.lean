import CinemaLoyalty.Effects
import CinemaLoyalty.Owners
import CinemaLoyalty.Lib.OwnerSerial

/-! @svc Concurrency | layer:property | source:src/prisma/profile-transaction.ts, src/loyalty, src/achievements, test/integration/profile-concurrency.integration-spec.ts

    Overlapping calls behave as if they ran one at a time. Every call keeps the locking discipline of
    its user's profile row and looks at one shared key at most (`tx_disciplined`), so any
    interleaving of statements under READ COMMITTED is serializable (`calls_serializable`). -/

namespace CinemaLoyalty
open Txn Txn.OwnerStore

/-! ### Programs on one user's rows -/

section confined
variable {u : Uuid} {now : Instant}

/-- A new ledger row belongs to the user it names. -/
theorem yields_transaction {row t : PointsTransaction}
    (h : Yields pg (.createTransaction row) t) : t.userId = row.userId := by
  obtain ⟨x, ws, h⟩ := h
  simp only [pg, DB.eval] at h
  (repeat' split at h) <;> cases h
  rfl

/-- The rows found are the user's. -/
theorem yields_transactions {c : PointsTransaction → Bool} {rows : List PointsTransaction}
    (h : Yields pg (.findTransactions u c) rows) : ∀ t ∈ rows, t.userId = u := by
  obtain ⟨x, ws, h⟩ := h
  cases h
  intro t ht
  simpa using (List.mem_filter.1 (List.mem_of_mem_filter ht)).2

theorem announceTier_confined (userId : UuidText) (oldTier newTier : Tier) :
    loyaltyRows.Confined userId.value (announceTier userId oldTier newTier now) := by
  unfold announceTier
  split
  · exact .stmt rfl fun _ _ => .pure _
  · exact .pure _

theorem grantBirthdayBonusInTransaction_confined (userId : UuidText) :
    loyaltyRows.Confined userId.value (grantBirthdayBonusInTransaction userId now) := by
  unfold grantBirthdayBonusInTransaction
  simp only [Prog.call_bind, Prog.pure_eq]
  refine .stmt rfl fun granted _ => ?_
  split
  · exact .pure _
  refine .stmt rfl fun profile _ => ?_
  cases profile with
  | none => exact .pure _
  | some profile =>
    simp only
    split
    · exact .pure _
    refine .stmt rfl fun updated _ => .stmt rfl fun t _ => .stmt rfl fun _ _ => ?_
    exact (announceTier_confined _ _ _).bind fun _ => .pure _

theorem assertAccountingInteger_confined (n : ℤ) :
    loyaltyRows.Confined u (assertAccountingInteger n) := by
  unfold assertAccountingInteger
  split
  · exact .pure _
  · exact .throw _

theorem assertPurchaseRange_confined (p : LoyaltyProfile) (n : ℤ) :
    loyaltyRows.Confined u (assertPurchaseRange p n) := by
  unfold assertPurchaseRange
  refine (assertAccountingInteger_confined _).bind fun _ =>
    (assertAccountingInteger_confined _).bind fun _ => ?_
  split
  · exact (assertAccountingInteger_confined _).bind fun _ =>
      (assertAccountingInteger_confined _).bind fun _ => assertAccountingInteger_confined _
  · exact .pure _

theorem resolvePointsUsed_confined (msg : TicketPurchasedDto) :
    loyaltyRows.Confined msg.userId.value (resolvePointsUsedForOrder msg) := by
  unfold resolvePointsUsedForOrder
  split
  · exact .pure _
  · exact .pure _
  · exact .stmt rfl fun _ _ => .pure _

theorem recordEarned_confined (msg : TicketPurchasedDto) (n b : ℤ) :
    loyaltyRows.Confined msg.userId.value (recordEarned msg n b now) := by
  unfold recordEarned
  split
  · exact .stmt rfl fun _ _ => .pure _
  · exact .pure _

theorem asInt_confined (n : JsNumber) : loyaltyRows.Confined u (asInt n) := by
  unfold asInt
  split
  · exact .throw _
  · exact .pure _

theorem advance_confined (achievementId : Uuid) (existing : Option UserAchievement)
    (targetCount n : ℤ) :
    loyaltyRows.Confined u (advance u achievementId existing targetCount n) := by
  unfold advance
  split
  · exact .stmt rfl fun _ _ => .pure _
  · exact .stmt rfl fun _ _ => .pure _

theorem saveDispatchIntents_confined (events : List ActionEvent) :
    loyaltyRows.Confined u (saveDispatchIntents u events) := by
  unfold saveDispatchIntents
  rcases intentRows_final events with ⟨rows, hr⟩ | ⟨e, hr⟩
  · rw [hr]; exact .stmt rfl fun _ _ => .pure _
  · rw [hr]; exact .throw _

end confined

/-! ### Calls that look at no key -/

section unkeyed
variable {α : Type} {u : Uuid} {key : String} {now : Instant}

/-- A callback that locks the profile and stops without it. -/
theorem disciplined_locked {body : Bool → Tx α} (hlocked : loyaltyRows.Confined u (body true))
    (hmissing : OwnerStore.Final (body false)) : loyaltyRows.Disciplined u key (lockLoyaltyProfile u >>= body) :=
  .locked (fun _ => .throw .zod) (hlocked.disc (by simp)) (.final hmissing)

/-- A callback that creates the profile if it is missing. -/
theorem disciplined_created {body : Bool → Tx α} (h : loyaltyRows.Confined u (body true)) :
    loyaltyRows.Disciplined u key (lockLoyaltyProfile u true >>= body) :=
  .opened (fun _ => .throw .zod) (h.disc (by simp))

theorem processUserDateOfBirthSet_disciplined (newDate : String → Option Instant)
    (userId : UuidText) (text : String) :
    loyaltyRows.Disciplined userId.value key (processUserDateOfBirthSet newDate userId text now) := by
  unfold processUserDateOfBirthSet
  split
  · exact .final (.inr ⟨_, rfl⟩)
  split
  · exact .final (.inr ⟨_, rfl⟩)
  refine disciplined_created (.stmt rfl fun _ _ => ?_)
  show loyaltyRows.Confined _ (ite _ _ _)
  split
  · exact .pure _
  · exact grantBirthdayBonusInTransaction_confined userId

theorem grantBirthdayBonusForUser_disciplined (userId : UuidText) :
    loyaltyRows.Disciplined userId.value key (grantBirthdayBonusForUser userId now) :=
  disciplined_locked (grantBirthdayBonusInTransaction_confined userId) (.inl ⟨_, rfl⟩)

theorem modifyPointsGrpc_disciplined (userId : UuidText) (adminId : String) (points : ℤ)
    (reason : String) :
    loyaltyRows.Disciplined userId.value key (modifyPointsGrpc userId adminId points reason now) := by
  unfold modifyPointsGrpc
  split
  · exact .final (.inr ⟨_, rfl⟩)
  refine disciplined_created (.stmt rfl fun profile _ => ?_)
  cases profile with
  | none => exact .throw _
  | some profile =>
    show loyaltyRows.Confined _ (ite _ _ _)
    split
    · exact .throw _
    refine .stmt rfl fun updated _ => .stmt rfl fun t _ => ?_
    exact (announceTier_confined _ _ _).bind fun _ => .pure _

theorem grantVipStatusGrpc_disciplined (userId : UuidText) (adminId reason : String) :
    loyaltyRows.Disciplined userId.value key (grantVipStatusGrpc userId adminId reason now) := by
  refine disciplined_created (.stmt rfl fun profile _ => ?_)
  cases profile with
  | none => exact .throw _
  | some profile =>
    show loyaltyRows.Confined _ (ite _ _ _)
    split
    · exact .throw _
    · exact .stmt rfl fun _ _ => .stmt rfl fun _ _ => .stmt rfl fun _ _ => .pure _

theorem expirePointsStep_disciplined (userId : Uuid) :
    loyaltyRows.Disciplined userId key (expirePointsStep userId now) := by
  refine disciplined_locked (.stmt rfl fun profile _ => ?_) (.inl ⟨_, rfl⟩)
  cases profile with
  | none => exact .pure _
  | some profile =>
    show loyaltyRows.Confined _ (ite _ _ _)
    split
    · exact .pure _
    · exact .stmt rfl fun _ _ => .stmt rfl fun _ _ => .pure _

theorem resetAnnualStatsStep_disciplined (userId : Uuid) :
    loyaltyRows.Disciplined userId key (resetAnnualStatsStep userId) :=
  disciplined_locked (.stmt rfl fun _ _ => .pure _) (.inl ⟨_, rfl⟩)

theorem goldResetStep_disciplined (userId : Uuid) :
    loyaltyRows.Disciplined userId key (goldResetStep userId now) :=
  disciplined_locked (.stmt rfl fun _ _ => .pure _) (.inl ⟨_, rfl⟩)

theorem useGoldUpgradeTx_disciplined (userId orderId : UuidText) :
    loyaltyRows.Disciplined userId.value key (useGoldUpgradeTx userId orderId now) := by
  unfold useGoldUpgradeTx
  simp only [Prog.call_bind, Prog.pure_eq]
  refine disciplined_locked (.stmt rfl fun profile _ => ?_) (.inr ⟨_, rfl⟩)
  cases profile with
  | none => exact .throw _
  | some profile =>
    refine .stmt rfl fun existing _ => ?_
    split
    · split
      · exact .pure _
      · exact .pure _
    split
    · exact .pure _
    refine .stmt rfl fun occupied _ => ?_
    split
    · exact .pure _
    · exact .stmt rfl fun _ _ => .stmt rfl fun _ _ => .pure _

theorem rollbackGoldUpgradeTx_disciplined (userId orderId : UuidText) :
    loyaltyRows.Disciplined userId.value key (rollbackGoldUpgradeTx userId orderId now) := by
  unfold rollbackGoldUpgradeTx
  simp only [Prog.call_bind, Prog.pure_eq]
  refine disciplined_locked (.stmt rfl fun found _ => ?_) (.inl ⟨_, rfl⟩)
  split
  · exact .pure _
  split
  · exact .pure _
  · exact .stmt rfl fun _ _ => .stmt rfl fun _ _ => .pure _

end unkeyed

/-! ### Calls that look at a key -/

section keyed
variable {now : Instant}

/-- Once the key was claimed, or seen taken, the rest only has to stay with its user. -/
theorem disc_confined {α : Type} {P p : Tx α} {u : Uuid} {k : String} {ans : ProcessedEvent → Tx α}
    {seen : Seen} {wrote : Bool} (hs : seen ≠ .absent) (hp : loyaltyRows.Confined u p) :
    loyaltyRows.Disc P u k ans seen wrote p :=
  hp.disc hs

theorem processTicketPurchase_disciplined (msg : TicketPurchasedDto) :
    loyaltyRows.Disciplined msg.userId.value msg.eventId.text (processTicketPurchase msg now) := by
  refine .opened (fun _ => .throw .zod) (.find ?absent fun e => ?present)
  case present =>
    refine disc_confined (by simp) (?_ : loyaltyRows.Confined _ (ite _ _ _))
    split
    · exact .throw _
    · exact .pure _
  case absent =>
    refine .write rfl fun profile _ => ?_
    cases profile with
    | none => exact .throw _
    | some profile =>
      refine (resolvePointsUsed_confined msg).disc_bind fun used => ?_
      refine (assertPurchaseRange_confined _ _).disc_bind fun _ => ?_
      refine .write rfl fun _ _ => ?_
      refine (recordEarned_confined msg _ _).disc_bind fun _ => ?_
      refine .create rfl (disc_confined (by simp) ?_)
      exact (announceTier_confined _ _ _).bind fun _ => saveDispatchIntents_confined _

theorem processAchievementTx_disciplined (eventId : String) (userId : Uuid)
    (achievement : Achievement) (targetCount : ℤ) (incrementBy : JsNumber) :
    loyaltyRows.Disciplined userId (uniqueProcessId eventId achievement)
      (processAchievementTx eventId userId achievement targetCount incrementBy now) := by
  unfold processAchievementTx lockLoyaltyProfile
  simp only [if_true, Prog.call_bind, Prog.stmt_bind, Prog.pure_eq]
  refine .opened (fun _ => .throw .zod) (.claimFirst rfl ?won ?lost)
  case lost =>
    rw [if_pos rfl]
    refine .refind fun e => disc_confined (by simp) ?_
    split
    · exact .throw _
    · exact .pure _
  case won =>
    rw [if_neg Nat.one_ne_zero]
    refine disc_confined (by simp) (.stmt rfl fun existing _ => ?_)
    split
    · exact .pure _
    refine (asInt_confined _).bind fun n => (advance_confined _ _ _ _).bind fun row => ?_
    split
    · exact .pure _
    refine .stmt rfl fun unlocked _ => ?_
    split
    · exact .pure _
    split
    · exact .pure _
    · exact .stmt rfl fun _ _ => .stmt rfl fun _ _ => .pure _

theorem final_confined {α : Type} {u : Uuid} {p : Tx α} (h : OwnerStore.Final p) : loyaltyRows.Confined u p := by
  rcases h with ⟨a, rfl⟩ | ⟨e, rfl⟩
  · exact .pure a
  · exact .throw e

section command
variable {command : PointCommand} {u : Uuid}

/-- What a command does with the record of its key. -/
def answerFrom {α : Type} (command : PointCommand) (missing : Tx α) (answer : PointCommandResult → Tx α) :
    Option ProcessedEvent → Tx α
  | none => missing
  | some e => replayOf command e >>= answer

/-- A replay check is one look at the key. -/
theorem replay_lookup {α : Type} (command : PointCommand) (k : Option PointCommandResult → Tx α) :
    (replayPointCommand command >>= k) = .stmt (.findEvent command.idempotencyKey)
      (answerFrom command (k none) fun r => k (some r)) := by
  unfold replayPointCommand
  simp only [Prog.call_bind, Prog.stmt_bind, Prog.pure_eq]
  congr 1
  funext existing
  cases existing with
  | none => rfl
  | some e => simp only [answerFrom, Prog.bind_assoc, Prog.pure_bind]

/-- After a lost claim the record answers. -/
theorem lost_claim {α : Type} (command : PointCommand) (k : Option PointCommandResult → Tx α) :
    ((replayPointCommand command >>= fun replay => match replay with
      | none => .throw (.error "Point command record disappeared during claim")
      | some replay => .pure (some replay)) >>= k) = .stmt (.findEvent command.idempotencyKey)
        (answerFrom command (.throw (.error "Point command record disappeared during claim"))
          fun r => k (some r)) := by
  rw [Prog.bind_assoc, replay_lookup]
  rfl

/-- The claim of a key: won, the rest follows; lost, the record answers. -/
theorem claim_disc {P rest : Tx PointCommandResult} (b : ℤ)
    (ha : loyaltyRows.Answers P command.idempotencyKey (replayOf command))
    (hrest : loyaltyRows.Confined u rest) :
    loyaltyRows.Disc P u command.idempotencyKey (replayOf command) .absent false
      (claimPointCommand command b >>= fun racedReplay =>
        match racedReplay with
        | some racedReplay => .pure racedReplay
        | none => rest) := by
  unfold claimPointCommand
  simp only [Prog.call_bind, Prog.stmt_bind, Prog.pure_eq]
  refine .claim rfl ?won (lost_claim command _) (fun e => Prog.bind_pure _) ha
  rw [if_pos rfl]
  exact disc_confined (by simp) hrest

/-- A command looks at its key right after the lock and answers at once when it is recorded. -/
theorem command_disciplined {work : Bool → Tx PointCommandResult} (hmissing : OwnerStore.Final (work false))
    (hwork : ∀ P, loyaltyRows.Answers P command.idempotencyKey (replayOf command) →
      loyaltyRows.Disc P u command.idempotencyKey (replayOf command) .absent false (work true)) :
    loyaltyRows.Disciplined u command.idempotencyKey
      (lockLoyaltyProfile u >>= fun profileLocked => replayPointCommand command >>= fun replay =>
        match replay with
        | some replay => .pure replay
        | none => work profileLocked) := by
  unfold lockLoyaltyProfile
  simp only [Bool.false_eq_true, if_false, Prog.call_bind, replay_lookup]
  have ha : loyaltyRows.Answers (.stmt (.lockProfile u) fun profileLocked =>
      .stmt (.findEvent command.idempotencyKey)
        (answerFrom command (work profileLocked) fun r => .pure r))
      command.idempotencyKey (replayOf command) :=
    answers_of_lookup loyaltyRows (fun _ => rfl) (fun _ e => Prog.bind_pure _) (replayOf_final command)
  refine .locked (replayOf command) (.find (hwork _ ha) fun e => disc_confined (by simp) ?_)
    (.find hmissing (fun e => Prog.bind_pure _) ha)
  exact (final_confined (replayOf_final command e)).bind fun _ => .pure _

end command

theorem deductPointsTx_disciplined (command : PointCommand) (userId orderId : String) :
    loyaltyRows.Disciplined command.userId command.idempotencyKey
      (deductPointsTx command userId orderId now) := by
  refine command_disciplined ?missing fun P ha => ?work
  case missing =>
    show OwnerStore.Final (ite _ _ _)
    split
    · exact .inl ⟨_, rfl⟩
    · exact .inr ⟨_, rfl⟩
  case work =>
    show loyaltyRows.Disc _ _ _ _ _ _ (ite _ _ _)
    by_cases hmin : command.amount < LOYALTY_RULES.MINIMUM_DEDUCTION
    · rw [if_pos hmin]
      exact .pure _ fun _ => rfl
    rw [if_neg hmin]
    refine .read rfl (fun x b ws h => by cases h; rfl) fun profile _ => ?_
    cases profile with
    | none => exact .throw _
    | some profile =>
      show loyaltyRows.Disc _ _ _ _ _ _ (ite _ _ _)
      by_cases hbal : profile.balance < command.amount
      · rw [if_pos hbal]
        exact .pure _ fun _ => rfl
      rw [if_neg hbal]
      refine claim_disc _ ha (.stmt rfl fun _ _ => .stmt rfl fun debit hdebit => ?_)
      exact .stmt (congrArg some (yields_transaction hdebit)) fun _ _ => .pure _

theorem refundPointsTx_disciplined (command : PointCommand) (orderId : String) :
    loyaltyRows.Disciplined command.userId command.idempotencyKey
      (refundPointsTx command orderId now) := by
  have silent {c : PointsTransaction → Bool} :
      Silent pg (.findTransactions command.userId c) := fun x b ws h => by cases h; rfl
  refine command_disciplined (.inl ⟨_, rfl⟩) fun P ha => ?_
  refine .read rfl (fun x b ws h => by cases h; rfl) fun profile _ => ?_
  cases profile with
  | none => exact .pure _ fun _ => rfl
  | some profile =>
    refine .read rfl silent fun debits hdebits => ?_
    match debits, hdebits with
    | [], _ => exact .pure _ fun _ => rfl
    | _ :: _ :: _, _ => exact .pure _ fun _ => rfl
    | [debit], hdebits =>
      have howner : debit.userId = command.userId := yields_transactions hdebits debit (by simp)
      refine .read rfl silent fun refunds _ => ?_
      refine .read (congrArg some howner) (fun x b ws h => by cases h; rfl) fun checkout _ => ?_
      show loyaltyRows.Disc _ _ _ _ _ _ (ite _ _ _)
      by_cases hfree : refunds ≠ [] ∨ (checkout.bind (·.refundId)).isSome
      · rw [if_pos hfree]
        exact .pure _ fun _ => rfl
      rw [if_neg hfree]
      by_cases hlisted : checkout = none
      · rw [if_pos hlisted]
        exact .pure _ fun _ => rfl
      rw [if_neg hlisted]
      by_cases hamount : command.amount ≠ -debit.points
      · rw [if_pos hamount]
        exact .pure _ fun _ => rfl
      rw [if_neg hamount]
      refine claim_disc _ ha (.stmt rfl fun _ _ => .stmt rfl fun refund _ => ?_)
      refine .stmt (congrArg some howner) fun linked _ => ?_
      show loyaltyRows.Confined _ (ite _ _ _)
      split
      · exact .throw _
      · exact .pure _

end keyed

/-- Every call keeps the discipline of one user and one key. -/
theorem tx_disciplined (c : Call) (now : Instant) :
    ∃ u key, loyaltyRows.Disciplined u key (c.tx now) := by
  cases c with
  | deductPoints userId amount orderId key =>
    simp only [Call.tx, deductPoints]
    split
    · exact ⟨.nil, "", .final (.inl ⟨_, rfl⟩)⟩
    · exact ⟨_, _, (deductPointsTx_disciplined _ _ _).map _⟩
  | refundPoints userId amount orderId key =>
    simp only [Call.tx, refundPoints]
    split
    · exact ⟨.nil, "", .final (.inl ⟨_, rfl⟩)⟩
    · exact ⟨_, _, (refundPointsTx_disciplined _ _).map _⟩
  | processTicketPurchase msg => exact ⟨_, _, (processTicketPurchase_disciplined msg).map _⟩
  | processUserDateOfBirthSet newDate userId text =>
    exact ⟨_, "", (processUserDateOfBirthSet_disciplined newDate userId text).map _⟩
  | grantBirthdayBonusForUser userId =>
    exact ⟨_, "", (grantBirthdayBonusForUser_disciplined userId).map _⟩
  | modifyPointsGrpc userId adminId points reason =>
    exact ⟨_, "", (modifyPointsGrpc_disciplined userId adminId points reason).map _⟩
  | grantVipStatusGrpc userId adminId reason =>
    exact ⟨_, "", (grantVipStatusGrpc_disciplined userId adminId reason).map _⟩
  | processAchievement event achievement =>
    simp only [Call.tx, processAchievementJob]
    split
    · exact ⟨.nil, "", .final (.inr ⟨_, rfl⟩)⟩
    simp only [processAchievement]
    split
    · exact ⟨.nil, "", .final (.inl ⟨_, rfl⟩)⟩
    split
    · exact ⟨.nil, "", .final (.inl ⟨_, rfl⟩)⟩
    · exact ⟨_, _, (processAchievementTx_disciplined _ _ _ _ _).map _⟩
  | expirePoints userId => exact ⟨_, "", (expirePointsStep_disciplined userId).map _⟩
  | resetAnnualStats userId => exact ⟨_, "", (resetAnnualStatsStep_disciplined userId).map _⟩
  | goldReset userId => exact ⟨_, "", (goldResetStep_disciplined userId).map _⟩
  | useGoldUpgrade userId orderId =>
    exact ⟨_, "", (useGoldUpgradeTx_disciplined userId orderId).map _⟩
  | rollbackGoldUpgrade userId orderId =>
    exact ⟨_, "", (rollbackGoldUpgradeTx_disciplined userId orderId).map _⟩

/-- However the statements of any number of calls interleave under READ COMMITTED, the committed
    database and the answers of the committed calls are those of these calls run one at a time in
    some order. -/
theorem calls_serializable {ι : Type} [DecidableEq ι] (calls : ι → Call) (clock : ι → Instant)
    (db : DB) (M : Machine ι Stmt TxError DB Write Resource Answer)
    (hr : Reach pg (fun i => (calls i).tx (clock i)) db M) :
    Serializable pg (fun i => (calls i).tx (clock i)) db M := by
  choose own key hD using fun i => tx_disciplined (calls i) (clock i)
  exact serializable hD hr

/-- A step of the interleaving leaves the committed database alone or is the commit of one call, which
    has its effect on the database as it then stands. -/
theorem step_effect {ι : Type} [DecidableEq ι] {calls : ι → Call} {clock : ι → Instant} {db : DB}
    {M M' : Machine ι Stmt TxError DB Write Resource Answer}
    (hr : Reach pg (fun i => (calls i).tx (clock i)) db M)
    (hs : Step pg (fun i => (calls i).tx (clock i)) M M') :
    M'.db = M.db ∨ ∃ i a, M'.txs i = .done a ∧ Effect (clock i) M.db (calls i) M'.db := by
  choose own key hD using fun i => tx_disciplined (calls i) (clock i)
  rcases step_store hD hr hs with heq | ⟨i, a, hdone, hrun⟩
  · exact .inl heq
  · exact .inr ⟨i, a, hdone, tx_effect hrun⟩

/-- What every call keeps holds of the committed database in every interleaving. -/
theorem reach_keeps {ι : Type} [DecidableEq ι] {calls : ι → Call} {clock : ι → Instant} {db : DB}
    {M : Machine ι Stmt TxError DB Write Resource Answer} {I : DB → Prop} (hI : I db)
    (hstep : ∀ i a x x', I x → x.run ((calls i).tx (clock i)) = .ok (a, x') → I x')
    (hr : Reach pg (fun i => (calls i).tx (clock i)) db M) : I M.db := by
  choose own key hD using fun i => tx_disciplined (calls i) (clock i)
  exact OwnerStore.reach_invariant hD hI hstep hr

/-- Of two transactions, one is not in the way while it occupies nothing. -/
theorem other_free {M : Machine Bool Stmt TxError DB Write Resource Answer} {i : Bool}
    {rs : List Resource} (h : (M.txs !i).held = []) :
    ∀ j, j ≠ i → ∀ r ∈ rs, r ∉ (M.txs j).held := by
  intro j hj r _ hr
  rw [Bool.eq_not.2 hj, h] at hr
  cases hr

/-- A profile with 200 points. -/
def DB.twoHundred : DB :=
  { DB.empty with profiles := fun u => if u = .nil then some { balance := 200 } else none }

/-- Two withdrawals from it. -/
def overlapping (i : Bool) : Call :=
  .modifyPointsGrpc ⟨Uuid.nil.text, .nil, nilText_named⟩ "admin" (if i then -150 else -40) "withdrawn"

theorem calls_serializable_overlapping :
    ∃ M : Machine Bool Stmt TxError DB Write Resource Answer,
      M.txs true = .done (.modified ⟨.nil, .BRONZE, 50⟩) ∧
        M.txs false = .done (.modified ⟨.nil, .BRONZE, 10⟩) ∧
        (M.db.profiles .nil).map (·.balance) = some 10 ∧
        Serializable pg (fun i => (overlapping i).tx 0) DB.twoHundred M := by
  -- both find the profile there
  have h₀ : Reach pg (fun i => (overlapping i).tx 0) DB.twoHundred (.start _ DB.twoHundred) := .refl
  have h₁ := h₀.tail (.exec (i := false) rfl rfl (other_free rfl))
  have h₂ := h₁.tail (.exec (i := true) rfl rfl (other_free rfl))
  -- one locks it, reads it and writes
  have h₃ := h₂.tail (.exec (i := true) rfl rfl (other_free rfl))
  have h₄ := h₃.tail (.exec (i := true) rfl rfl (other_free rfl))
  have h₅ := h₄.tail (.exec (i := true) rfl rfl (other_free rfl))
  have h₆ := h₅.tail (.exec (i := true) rfl rfl (other_free rfl))
  have h₇ := h₆.tail (.commit (i := true) rfl)
  -- only then the other can lock it, and reads what is left
  have h₈ := h₇.tail (.exec (i := false) rfl rfl (other_free rfl))
  have h₉ := h₈.tail (.exec (i := false) rfl rfl (other_free rfl))
  have h₁₀ := h₉.tail (.exec (i := false) rfl rfl (other_free rfl))
  have h₁₁ := h₁₀.tail (.exec (i := false) rfl rfl (other_free rfl))
  have h₁₂ := h₁₁.tail (.commit (i := false) rfl)
  exact ⟨_, rfl, rfl, rfl, calls_serializable overlapping (fun _ => 0) DB.twoHundred _ h₁₂⟩

end CinemaLoyalty
