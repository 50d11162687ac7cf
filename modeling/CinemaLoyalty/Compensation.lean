import CinemaLoyalty.Books
import Mathlib.Data.List.Nodup
import CinemaLoyalty.Idempotency

/-! @svc Compensation | layer:property | source:src/loyalty/loyalty.service.ts (deductPoints), src/loyalty/loyalty-expiration.service.ts (refundPoints)

    Every checkout debit is compensated at most once. A change appends at most one ledger row, and
    only the two point commands touch the registry of debits (`change_ledger`); so debits, registry
    rows and refunds stay linked one to one over every run (`Compensated`), and no order is ever
    repaid more than it paid. -/

namespace CinemaLoyalty

/-! ### What a change does to the ledger and the registry -/

/-- One more ledger row, numbered among the rows of its user. -/
structure Appends (db db' : DB) (t : PointsTransaction) : Prop where
  rows : db'.pointsTransactions = db.pointsTransactions ++ [t]
  seq : t.seq = (db.ledgerOf t.userId).length

/-- The four things a change can do to the ledger and the registry of debits. -/
inductive LedgerStep (issued : PointCommand → Prop) (db db' : DB) : Prop
  | still (hl : db'.pointsTransactions = db.pointsTransactions)
      (hd : db'.checkoutDebits = db.checkoutDebits)
  | other {t : PointsTransaction} (ha : Appends db db' t) (hb : t.type ≠ .BURN_DISCOUNT)
      (hr : t.type ≠ .REFUND) (hd : db'.checkoutDebits = db.checkoutDebits)
  | debited {command : PointCommand} {t : PointsTransaction} (hc : issued command)
      (hop : command.operation = .DEDUCT) (hk : db.processedEvents command.idempotencyKey = none)
      (hk' : (db'.processedEvents command.idempotencyKey).isSome = true) (ha : Appends db db' t)
      (hu : t.userId = command.userId) (ho : t.orderId = some command.orderId)
      (ht : t.type = .BURN_DISCOUNT) (hp : t.points = -command.amount) (hneg : t.points < 0)
      (hd : ∀ id, db'.checkoutDebits id = if id = t.id then some {} else db.checkoutDebits id)
  | refunded {debit t : PointsTransaction} {orderId : Uuid} (ha : Appends db db' t)
      (ho : t.orderId = some orderId) (ht : t.type = .REFUND)
      (hdebit : (db.ledgerOf t.userId).filter (isDebitOf orderId) = [debit])
      (hrefunds : (db.ledgerOf t.userId).filter (isRefundOf orderId) = [])
      (hopen : db.checkoutDebits debit.id = some {}) (hp : t.points = -debit.points)
      (hd : ∀ id, db'.checkoutDebits id =
        if id = debit.id then some { refundId := some t.id } else db.checkoutDebits id)

section ledger
variable {db db' : DB} {issued : PointCommand → Prop}

theorem resolveTransactionType_earn (e : EventType) :
    resolveTransactionType e ≠ .BURN_DISCOUNT ∧ resolveTransactionType e ≠ .REFUND := by
  cases e <;> decide

theorem deducted_ledger {command : PointCommand} {p : LoyaltyProfile} {orderId : String}
    {now : Instant} (hc : issued command) (hop : command.operation = .DEDUCT)
    (hk : db.processedEvents command.idempotencyKey = none)
    (hmin : LOYALTY_RULES.MINIMUM_DEDUCTION ≤ command.amount) :
    LedgerStep issued db (db.deducted command p orderId now) := by
  simp only [LOYALTY_RULES.MINIMUM_DEDUCTION] at hmin
  refine .debited (t := command.debitRow (db.ledgerOf command.userId).length
    (p.balance - command.amount) orderId now) hc hop hk ?_ ⟨?_, rfl⟩ rfl rfl rfl rfl ?_ ?_
  · simp [DB.deducted, PointCommand.record]
  · simp [DB.deducted]
  · simp only [PointCommand.debitRow]; omega
  · intro id; simp [DB.deducted]

theorem refunded_ledger {command : PointCommand} {p : LoyaltyProfile} {debit : PointsTransaction}
    {orderId : String} {now : Instant}
    (hdebit : (db.ledgerOf command.userId).filter (isDebitOf command.orderId) = [debit])
    (hrefunds : (db.ledgerOf command.userId).filter (isRefundOf command.orderId) = [])
    (hopen : db.checkoutDebits debit.id = some {}) (hamount : command.amount = -debit.points) :
    LedgerStep issued db (db.refunded command p debit orderId now) := by
  refine .refunded (t := command.refundRow (db.ledgerOf command.userId).length
    (p.balance - debit.points) orderId now) ⟨?_, rfl⟩ rfl rfl hdebit hrefunds hopen hamount ?_
  · simp [DB.refunded]
  · intro id; simp [DB.refunded]

theorem progressed_ledger {eventId : String} {userId : Uuid} {achievement : Achievement}
    {targetCount : ℤ} {now : Instant}
    (h : ProgressOutcome db eventId userId achievement targetCount now db') :
    LedgerStep issued db db' := by
  cases h with
  | duplicate _ _ => exact .still (by simp) (by simp)
  | swallowed _ _ _ => exact .still (by simp [DB.marked]) (by simp [DB.marked])
  | advanced _ _ _ => exact .still (by simp [DB.marked]) (by simp [DB.marked])
  | unlocked _ _ _ _ =>
    exact .still (by simp [DB.marked, DB.unlocked]) (by simp [DB.marked, DB.unlocked])
  | @rewarded n _ _ _ _ =>
    refine .other (t := db.numbered (rewardRow userId achievement
      ((db.profileOrDefault userId).balance + achievement.rewardPoints) now)) ⟨?_, rfl⟩ ?_ ?_ ?_
    · simp [DB.rewarded, DB.unlocked, DB.marked, DB.post, DB.numbered]
    · simp [rewardRow]
    · simp [rewardRow]
    · simp [DB.rewarded, DB.unlocked, DB.marked, DB.post]

/-- Every change does one of the four. -/
theorem change_ledger {allowed : Call → Prop}
    (hissued : ∀ c command, allowed c → c.Issues command → issued command)
    (h : Change allowed db db') : LedgerStep issued db db' := by
  cases h with
  | ensured u => exact .still (by simp) (by simp)
  | deducted hc hop hk _ hmin _ =>
    obtain ⟨c, hc, hi⟩ := hc
    exact deducted_ledger (hissued c _ hc hi) hop hk hmin
  | refunded _ _ _ _ hdebit hrefunds hopen hamount =>
    exact refunded_ledger hdebit hrefunds hopen hamount
  | @purchased msg n now rows _ _ _ _ =>
    by_cases hn : n > 0
    · obtain ⟨hb, hr⟩ := resolveTransactionType_earn msg.eventType
      refine .other (t := db.numbered (msg.earnedRow n
        ((db.profileOrDefault msg.userId.value).balance + n) now)) ⟨?_, rfl⟩ hb hr ?_
      · simp [DB.purchased, DB.credited, hn, DB.post, DB.numbered]
      · simp [DB.purchased, DB.credited, hn, DB.post]
    · exact .still (by simp [DB.purchased, DB.credited, hn]) (by simp [DB.purchased, DB.credited, hn])
  | birthdaySet u d => exact .still (by simp [DB.birthdaySet]) (by simp [DB.birthdaySet])
  | @birthdayGranted userId p now _ _ _ =>
    refine .other (t := db.numbered (birthdayRow userId
      (p.balance + LOYALTY_RULES.BIRTHDAY_BONUS_POINTS) now)) ⟨?_, rfl⟩ ?_ ?_ ?_
    · simp [DB.birthdayGranted, DB.numbered]
    · simp [birthdayRow]
    · simp [birthdayRow]
    · simp [DB.birthdayGranted]
  | @adjusted userId adminId reason points now _ _ =>
    refine .other (t := db.numbered (adjustmentRow userId adminId points reason
      ((db.profileOrDefault userId.value).balance + points) now)) ⟨?_, rfl⟩ ?_ ?_ ?_
    · simp [DB.adjusted, DB.post, DB.numbered]
    · simp only [numbered_type, adjustmentRow]; split <;> simp
    · simp only [numbered_type, adjustmentRow]; split <;> simp
    · simp [DB.adjusted, DB.post]
  | @vipGranted userId adminId reason now _ =>
    refine .other (t := db.numbered (vipRow userId adminId reason
      (db.profileOrDefault userId.value).balance now)) ⟨?_, rfl⟩ ?_ ?_ ?_
    · simp [DB.vipGranted, DB.post, DB.numbered]
    · simp [vipRow]
    · simp [vipRow]
    · simp [DB.vipGranted, DB.post]
  | @expired userId p now _ _ =>
    refine .other (t := db.numbered (expireRow userId p.balance now)) ⟨?_, rfl⟩ ?_ ?_ ?_
    · simp [DB.post, DB.numbered]
    · simp [expireRow]
    · simp [expireRow]
    · simp [DB.post]
  | annualReset _ => exact .still (by simp) (by simp)
  | mirrored _ _ => exact .still (by simp) (by simp)
  | reserved _ => exact .still (by simp) (by simp)
  | released _ _ _ => exact .still (by simp) (by simp)
  | progressed _ h => exact progressed_ledger h
  | defined _ => exact .still rfl rfl

end ledger

/-! ### The links -/

/-- The debits of an order. -/
def isBurnOf (orderId : Uuid) (t : PointsTransaction) : Bool :=
  t.orderId = some orderId && t.type = .BURN_DISCOUNT

/-- The debits plus the refunds of a user and order. -/
def DB.orderNet (db : DB) (userId orderId : Uuid) : ℤ :=
  pointsOf ((db.ledgerOf userId).filter (isBurnOf orderId)) +
    pointsOf ((db.ledgerOf userId).filter (isRefundOf orderId))

/-- The registry names the refund `refundId` for the debit `debitId`. -/
def DB.Links (db : DB) (debitId refundId : RowId) : Prop :=
  ∃ d, db.checkoutDebits debitId = some d ∧ d.refundId = some refundId

/-- A refund that repays a debit of the same user and order in full. -/
structure Repays (refund debit : PointsTransaction) : Prop where
  refund_type : refund.type = .REFUND
  debit_type : debit.type = .BURN_DISCOUNT
  user : refund.userId = debit.userId
  order : refund.orderId = debit.orderId
  points : refund.points = -debit.points

/-- Debits, registry rows and refunds are linked one to one. -/
structure Compensated (db : DB) : Prop where
  fresh : ∀ t ∈ db.pointsTransactions, t.seq < (db.ledgerOf t.userId).length
  distinct : (db.pointsTransactions.map (·.id)).Nodup
  debits : ∀ t ∈ db.pointsTransactions, t.type = .BURN_DISCOUNT →
    t.points < 0 ∧ (db.checkoutDebits t.id).isSome = true
  owners : ∀ id d, db.checkoutDebits id = some d →
    ∃ t ∈ db.pointsTransactions, t.id = id ∧ t.type = .BURN_DISCOUNT
  links : ∀ id rid, db.Links id rid → ∃ debit ∈ db.pointsTransactions,
    ∃ refund ∈ db.pointsTransactions, debit.id = id ∧ refund.id = rid ∧ Repays refund debit
  refunds : ∀ r ∈ db.pointsTransactions, r.type = .REFUND → ∃! id, db.Links id r.id
  net : ∀ u o, db.orderNet u o ≤ 0

section appends
variable {db db' : DB} {t : PointsTransaction}

theorem pointsOf_filter_concat (p : PointsTransaction → Bool) (rows : List PointsTransaction) :
    pointsOf ((rows ++ [t]).filter p) = pointsOf (rows.filter p) + if p t then t.points else 0 := by
  by_cases h : p t <;> simp [pointsOf, List.filter_append, h]

theorem Appends.ledgerOf (ha : Appends db db' t) (u : Uuid) :
    db'.ledgerOf u = if t.userId = u then db.ledgerOf u ++ [t] else db.ledgerOf u := by
  unfold DB.ledgerOf
  rw [ha.rows, List.filter_append]
  by_cases hu : t.userId = u <;> simp [hu]

theorem Appends.orderNet (ha : Appends db db' t) (u o : Uuid) :
    db'.orderNet u o = db.orderNet u o +
      if t.userId = u ∧ (isBurnOf o t = true ∨ isRefundOf o t = true) then t.points else 0 := by
  unfold DB.orderNet
  rw [ha.ledgerOf]
  by_cases hu : t.userId = u
  · have hx : ¬(isBurnOf o t = true ∧ isRefundOf o t = true) := by
      simp only [isBurnOf, isRefundOf, Bool.and_eq_true, decide_eq_true_eq]
      rintro ⟨⟨-, h₁⟩, -, h₂⟩
      rw [h₁] at h₂
      cases h₂
    simp only [hu, if_true, pointsOf_filter_concat, true_and]
    by_cases hb : isBurnOf o t = true <;> by_cases hr : isRefundOf o t = true
    · exact (hx ⟨hb, hr⟩).elim
    all_goals simp [hb, hr]; try omega
  · simp [hu]

/-- The new row has a new id. -/
theorem Appends.fresh_id (ha : Appends db db' t) (hc : Compensated db) {q : PointsTransaction}
    (hq : q ∈ db.pointsTransactions) : q.id ≠ t.id := by
  intro h
  have hlt := hc.fresh q hq
  obtain ⟨hu, hs⟩ := RowId.mk.inj h
  rw [hs, hu, ha.seq] at hlt
  exact lt_irrefl _ hlt

theorem Appends.mem (ha : Appends db db' t) {q : PointsTransaction} :
    q ∈ db'.pointsTransactions ↔ q ∈ db.pointsTransactions ∨ q = t := by
  rw [ha.rows]; simp

theorem Appends.fresh (ha : Appends db db' t) (hc : Compensated db) :
    ∀ q ∈ db'.pointsTransactions, q.seq < (db'.ledgerOf q.userId).length := by
  intro q hq
  rw [ha.ledgerOf]
  rcases ha.mem.1 hq with hq | rfl
  · have hlt := hc.fresh q hq
    split
    · rw [List.length_append]; omega
    · exact hlt
  · rw [if_pos rfl, ha.seq, List.length_append]
    simp

theorem Appends.distinct (ha : Appends db db' t) (hc : Compensated db) :
    (db'.pointsTransactions.map (·.id)).Nodup := by
  rw [ha.rows, List.map_append, List.nodup_append]
  refine ⟨hc.distinct, by simp, ?_⟩
  rintro a hmem b hb
  obtain ⟨q, hq, rfl⟩ := List.mem_map.1 hmem
  simp only [List.map_cons, List.map_nil, List.mem_singleton] at hb
  rw [hb]
  exact ha.fresh_id hc hq

end appends

/-- The registry has no row under a new id, and no link to one. -/
theorem Appends.unregistered {db db' : DB} {t : PointsTransaction} (ha : Appends db db' t)
    (hc : Compensated db) : db.checkoutDebits t.id = none ∧ ∀ id, ¬db.Links id t.id := by
  constructor
  · cases hd : db.checkoutDebits t.id with
    | none => rfl
    | some d =>
      obtain ⟨q, hq, hid, -⟩ := hc.owners _ _ hd
      exact (ha.fresh_id hc hq hid).elim
  · intro id hl
    obtain ⟨-, -, r, hr, -, hid, -⟩ := hc.links _ _ hl
    exact ha.fresh_id hc hr hid

/-- Under the invariant every debit row is negative, so the lookup of a refund sees all of them. -/
theorem Compensated.debits_eq {db : DB} (hc : Compensated db) (u o : Uuid) :
    (db.ledgerOf u).filter (isDebitOf o) = (db.ledgerOf u).filter (isBurnOf o) := by
  refine List.filter_congr fun t ht => ?_
  have hmem : t ∈ db.pointsTransactions := List.mem_of_mem_filter ht
  unfold isDebitOf isBurnOf
  by_cases hb : t.type = .BURN_DISCOUNT
  · simp [hb, (hc.debits t hmem hb).1]
  · simp [hb]

section steps
variable {db db' : DB} {t : PointsTransaction}

theorem compensated_still (hc : Compensated db)
    (hl : db'.pointsTransactions = db.pointsTransactions)
    (hd : db'.checkoutDebits = db.checkoutDebits) : Compensated db' := by
  have hlinks : ∀ id rid, db'.Links id rid ↔ db.Links id rid := fun id rid => by
    unfold DB.Links; rw [hd]
  have hledger : ∀ u, db'.ledgerOf u = db.ledgerOf u := fun u => by unfold DB.ledgerOf; rw [hl]
  refine ⟨?_, ?_, ?_, ?_, ?_, ?_, ?_⟩
  · simpa only [hl, hledger] using hc.fresh
  · simpa only [hl] using hc.distinct
  · simpa only [hl, hd] using hc.debits
  · simpa only [hl, hd] using hc.owners
  · simpa only [hl, hlinks] using hc.links
  · simpa only [hl, hlinks] using hc.refunds
  · intro u o; unfold DB.orderNet; rw [hledger]; exact hc.net u o

/-- Whatever is appended, an old row keeps its place and its link. -/
theorem links_weaken (ha : Appends db db' t) (hc : Compensated db) {id rid : RowId}
    (h : db.Links id rid) : ∃ debit ∈ db'.pointsTransactions,
      ∃ refund ∈ db'.pointsTransactions, debit.id = id ∧ refund.id = rid ∧ Repays refund debit := by
  obtain ⟨debit, hdebit, refund, hrefund, hrest⟩ := hc.links _ _ h
  exact ⟨debit, ha.mem.2 (.inl hdebit), refund, ha.mem.2 (.inl hrefund), hrest⟩

theorem compensated_other (hc : Compensated db) (ha : Appends db db' t)
    (hb : t.type ≠ .BURN_DISCOUNT) (hr : t.type ≠ .REFUND)
    (hd : db'.checkoutDebits = db.checkoutDebits) : Compensated db' := by
  have hlinks : ∀ id rid, db'.Links id rid ↔ db.Links id rid := fun id rid => by
    unfold DB.Links; rw [hd]
  exact
    { fresh := ha.fresh hc
      distinct := ha.distinct hc
      debits := by
        intro q hq hty
        rw [hd]
        rcases ha.mem.1 hq with hq | rfl
        · exact hc.debits q hq hty
        · exact (hb hty).elim
      owners := by
        intro id d h
        rw [hd] at h
        obtain ⟨q, hq, hrest⟩ := hc.owners id d h
        exact ⟨q, ha.mem.2 (.inl hq), hrest⟩
      links := by
        intro id rid h
        exact links_weaken ha hc ((hlinks id rid).1 h)
      refunds := by
        intro r hmem hty
        simp only [hlinks]
        rcases ha.mem.1 hmem with hmem | rfl
        · exact hc.refunds r hmem hty
        · exact (hr hty).elim
      net := by
        intro u o
        rw [ha.orderNet, if_neg, add_zero]
        · exact hc.net u o
        · rintro ⟨-, h | h⟩ <;> simp [isBurnOf, isRefundOf, hb, hr] at h }

theorem compensated_debited (hc : Compensated db) (ha : Appends db db' t)
    (ht : t.type = .BURN_DISCOUNT) (hneg : t.points < 0)
    (hd : ∀ id, db'.checkoutDebits id = if id = t.id then some {} else db.checkoutDebits id) :
    Compensated db' := by
  obtain ⟨hnone, hunlinked⟩ := ha.unregistered hc
  have hlinks : ∀ id rid, db'.Links id rid ↔ db.Links id rid := fun id rid => by
    unfold DB.Links
    rw [hd]
    split
    · rename_i h
      rw [h, hnone]
      simp
    · rfl
  exact
    { fresh := ha.fresh hc
      distinct := ha.distinct hc
      debits := by
        intro q hq hty
        rw [hd]
        rcases ha.mem.1 hq with hq | rfl
        · rw [if_neg (ha.fresh_id hc hq)]
          exact hc.debits q hq hty
        · exact ⟨hneg, by simp⟩
      owners := by
        intro id d h
        rw [hd] at h
        split at h
        · rename_i hid
          exact ⟨t, ha.mem.2 (.inr rfl), hid.symm, ht⟩
        · obtain ⟨q, hq, hrest⟩ := hc.owners id d h
          exact ⟨q, ha.mem.2 (.inl hq), hrest⟩
      links := by
        intro id rid h
        exact links_weaken ha hc ((hlinks id rid).1 h)
      refunds := by
        intro r hmem hty
        simp only [hlinks]
        rcases ha.mem.1 hmem with hmem | rfl
        · exact hc.refunds r hmem hty
        · rw [ht] at hty; cases hty
      net := by
        intro u o
        rw [ha.orderNet]
        have := hc.net u o
        split <;> omega }

theorem compensated_refunded (hc : Compensated db) (ha : Appends db db' t)
    {debit : PointsTransaction} {orderId : Uuid} (ho : t.orderId = some orderId)
    (ht : t.type = .REFUND)
    (hdebit : (db.ledgerOf t.userId).filter (isDebitOf orderId) = [debit])
    (hrefunds : (db.ledgerOf t.userId).filter (isRefundOf orderId) = [])
    (hopen : db.checkoutDebits debit.id = some {}) (hp : t.points = -debit.points)
    (hd : ∀ id, db'.checkoutDebits id =
      if id = debit.id then some { refundId := some t.id } else db.checkoutDebits id) :
    Compensated db' := by
  obtain ⟨hnone, hunlinked⟩ := ha.unregistered hc
  have hmemf : debit ∈ (db.ledgerOf t.userId).filter (isDebitOf orderId) := by simp [hdebit]
  obtain ⟨hledger, hisdebit⟩ := List.mem_filter.1 hmemf
  obtain ⟨hmem, huser⟩ := List.mem_filter.1 hledger
  simp only [isDebitOf, Bool.and_eq_true, decide_eq_true_eq] at hisdebit huser
  have hlinks : ∀ id rid, db'.Links id rid ↔ db.Links id rid ∨ id = debit.id ∧ rid = t.id := by
    intro id rid
    unfold DB.Links
    rw [hd]
    split
    · rename_i h
      rw [h, hopen]
      simp [eq_comm]
    · rename_i h
      simp [h]
  exact
    { fresh := ha.fresh hc
      distinct := ha.distinct hc
      debits := by
        intro q hq hty
        rw [hd]
        rcases ha.mem.1 hq with hq | rfl
        · obtain ⟨hneg, hsome⟩ := hc.debits q hq hty
          refine ⟨hneg, ?_⟩
          split
          · rfl
          · exact hsome
        · rw [ht] at hty; cases hty
      owners := by
        intro id d h
        rw [hd] at h
        split at h
        · rename_i hid
          exact ⟨debit, ha.mem.2 (.inl hmem), hid.symm, hisdebit.1.2⟩
        · obtain ⟨q, hq, hrest⟩ := hc.owners id d h
          exact ⟨q, ha.mem.2 (.inl hq), hrest⟩
      links := by
        intro id rid h
        rcases (hlinks id rid).1 h with h | ⟨rfl, rfl⟩
        · exact links_weaken ha hc h
        · exact ⟨debit, ha.mem.2 (.inl hmem), t, ha.mem.2 (.inr rfl), rfl, rfl,
            ⟨ht, hisdebit.1.2, huser.symm, ho.trans hisdebit.1.1.symm, hp⟩⟩
      refunds := by
        intro r hr hty
        simp only [hlinks]
        rcases ha.mem.1 hr with hr | rfl
        · obtain ⟨id, hid, huniq⟩ := hc.refunds r hr hty
          refine ⟨id, .inl hid, ?_⟩
          rintro id' (h | ⟨-, h⟩)
          · exact huniq id' h
          · exact (ha.fresh_id hc hr h).elim
        · refine ⟨debit.id, .inr ⟨rfl, rfl⟩, ?_⟩
          rintro id' (h | ⟨h, -⟩)
          · exact (hunlinked id' h).elim
          · exact h
      net := by
        intro u o
        rw [ha.orderNet]
        split
        · rename_i h
          obtain ⟨rfl, h⟩ := h
          have ho' : o = orderId := by
            simp only [isBurnOf, isRefundOf, ho, ht, Bool.and_eq_true, decide_eq_true_eq] at h
            rcases h with ⟨h, -⟩ | ⟨h, -⟩ <;> exact (Option.some.inj h).symm
          subst ho'
          unfold DB.orderNet
          rw [← hc.debits_eq, hdebit, hrefunds]
          simp [pointsOf, hp]
        · rw [add_zero]; exact hc.net u o }

/-- One step keeps the links. -/
theorem compensated_step {issued : PointCommand → Prop} (hc : Compensated db)
    (h : LedgerStep issued db db') : Compensated db' := by
  cases h with
  | still hl hd => exact compensated_still hc hl hd
  | other ha hb hr hd => exact compensated_other hc ha hb hr hd
  | debited _ _ _ _ ha _ _ ht _ hneg hd => exact compensated_debited hc ha ht hneg hd
  | refunded ha ho ht hdebit hrefunds hopen hp hd =>
    exact compensated_refunded hc ha ho ht hdebit hrefunds hopen hp hd

end steps

/-! ### One deduction and its refund -/

/-- The commands of a run, when the only deduction of an order is `cd`. -/
def OnlyDeducts (cd command : PointCommand) : Prop :=
  command.operation = .DEDUCT → command.userId = cd.userId → command.orderId = cd.orderId →
    command = cd

/-- The order of `cd` is untouched, or its key is bound and its one debit is open or repaid. -/
inductive Settled (cd : PointCommand) (db : DB) : Prop
  | untouched (hb : (db.ledgerOf cd.userId).filter (isBurnOf cd.orderId) = [])
      (hr : (db.ledgerOf cd.userId).filter (isRefundOf cd.orderId) = [])
  | paid {debit : PointsTransaction} {e : ProcessedEvent}
      (hk : db.processedEvents cd.idempotencyKey = some e)
      (hb : (db.ledgerOf cd.userId).filter (isBurnOf cd.orderId) = [debit])
      (hp : debit.points = -cd.amount)
      (hr : (db.ledgerOf cd.userId).filter (isRefundOf cd.orderId) = [])
  | repaid {debit refund : PointsTransaction} {e : ProcessedEvent}
      (hk : db.processedEvents cd.idempotencyKey = some e)
      (hb : (db.ledgerOf cd.userId).filter (isBurnOf cd.orderId) = [debit])
      (hp : debit.points = -cd.amount)
      (hr : (db.ledgerOf cd.userId).filter (isRefundOf cd.orderId) = [refund])
      (hp' : refund.points = cd.amount)

section settled
variable {db db' : DB} {cd : PointCommand}

theorem Settled.net (h : Settled cd db) :
    db.orderNet cd.userId cd.orderId = 0 ∨ db.orderNet cd.userId cd.orderId = -cd.amount := by
  unfold DB.orderNet
  cases h with
  | untouched hb hr => left; simp [hb, hr, pointsOf]
  | paid _ hb hp hr => right; simp [hb, hr, hp, pointsOf]
  | repaid _ hb hp hr hp' => left; simp [hb, hr, hp, hp', pointsOf]

/-- A step that leaves the debits and refunds of the order alone. -/
theorem settled_same (h : Settled cd db)
    (hkeep : ∀ e, db.processedEvents cd.idempotencyKey = some e →
      db'.processedEvents cd.idempotencyKey = some e)
    (hb : (db'.ledgerOf cd.userId).filter (isBurnOf cd.orderId) =
      (db.ledgerOf cd.userId).filter (isBurnOf cd.orderId))
    (hr : (db'.ledgerOf cd.userId).filter (isRefundOf cd.orderId) =
      (db.ledgerOf cd.userId).filter (isRefundOf cd.orderId)) : Settled cd db' := by
  cases h with
  | untouched hb' hr' => exact .untouched (hb.trans hb') (hr.trans hr')
  | paid hk hb' hp hr' => exact .paid (hkeep _ hk) (hb.trans hb') hp (hr.trans hr')
  | repaid hk hb' hp hr' hp' => exact .repaid (hkeep _ hk) (hb.trans hb') hp (hr.trans hr') hp'

/-- What the order's rows become when a row is appended. -/
theorem Appends.filter_order {t : PointsTransaction} (ha : Appends db db' t)
    (p : PointsTransaction → Bool) (u : Uuid) : (db'.ledgerOf u).filter p =
      (db.ledgerOf u).filter p ++ if t.userId = u ∧ p t = true then [t] else [] := by
  rw [ha.ledgerOf]
  by_cases hu : t.userId = u <;> by_cases hp : p t = true <;>
    simp [hu, hp, List.filter_append]

theorem settled_step (hc : Compensated db) (h : Settled cd db)
    (hkeep : ∀ e, db.processedEvents cd.idempotencyKey = some e →
      db'.processedEvents cd.idempotencyKey = some e)
    (hs : LedgerStep (OnlyDeducts cd) db db') : Settled cd db' := by
  cases hs with
  | still hl hd =>
    have hledger : db'.ledgerOf cd.userId = db.ledgerOf cd.userId := by unfold DB.ledgerOf; rw [hl]
    exact settled_same h hkeep (by rw [hledger]) (by rw [hledger])
  | other ha hb hr hd =>
    refine settled_same h hkeep ?_ ?_
    · rw [ha.filter_order, if_neg (by simp [isBurnOf, hb]), List.append_nil]
    · rw [ha.filter_order, if_neg (by simp [isRefundOf, hr]), List.append_nil]
  | @debited command t hcmd hop hk hk' ha hu ho ht hp hneg hd =>
    have hrefund : ¬(t.userId = cd.userId ∧ isRefundOf cd.orderId t = true) := by
      simp [isRefundOf, ht]
    by_cases hmine : command.userId = cd.userId ∧ command.orderId = cd.orderId
    · -- the command is `cd`, whose key was free, so the order was untouched
      obtain rfl : command = cd := hcmd hop hmine.1 hmine.2
      have hburn : t.userId = command.userId ∧ isBurnOf command.orderId t = true :=
        ⟨hu, by simp [isBurnOf, ht, ho]⟩
      obtain ⟨e, he⟩ := Option.isSome_iff_exists.1 hk'
      cases h with
      | untouched hb hr =>
        refine .paid he (?_ : _ = [t]) hp ?_
        · rw [ha.filter_order, if_pos hburn, hb]; rfl
        · rw [ha.filter_order, if_neg hrefund, hr]; rfl
      | paid hk₀ _ _ _ => rw [hk] at hk₀; cases hk₀
      | repaid hk₀ _ _ _ _ => rw [hk] at hk₀; cases hk₀
    · have hburn : ¬(t.userId = cd.userId ∧ isBurnOf cd.orderId t = true) := by
        simp only [isBurnOf, ho, ht, hu, Bool.and_eq_true, decide_eq_true_eq, Option.some.injEq]
        rintro ⟨h₁, h₂, -⟩
        exact hmine ⟨h₁, h₂⟩
      refine settled_same h hkeep ?_ ?_
      · rw [ha.filter_order, if_neg hburn, List.append_nil]
      · rw [ha.filter_order, if_neg hrefund, List.append_nil]
  | @refunded debit t orderId ha ho ht hdebit hrefunds hopen hp hd =>
    have hburn : ∀ o, ¬(t.userId = cd.userId ∧ isBurnOf o t = true) := by
      intro o; simp [isBurnOf, ht]
    by_cases hmine : t.userId = cd.userId ∧ orderId = cd.orderId
    · -- the order had one open debit, which this row repays
      obtain ⟨hu, rfl⟩ := hmine
      have hrefund : t.userId = cd.userId ∧ isRefundOf cd.orderId t = true :=
        ⟨hu, by simp [isRefundOf, ht, ho]⟩
      rw [hc.debits_eq, hu] at hdebit
      rw [hu] at hrefunds
      cases h with
      | untouched hb hr => rw [hb] at hdebit; cases hdebit
      | paid hk hb hp₀ hr =>
        rw [hb] at hdebit
        cases hdebit
        refine .repaid (hkeep _ hk) (?_ : _ = [debit]) hp₀ (?_ : _ = [t]) (by omega)
        · rw [ha.filter_order, if_neg (hburn _), hb]; rfl
        · rw [ha.filter_order, if_pos hrefund, hr]; rfl
      | repaid _ _ _ hr _ => rw [hr] at hrefunds; cases hrefunds
    · have hrefund : ¬(t.userId = cd.userId ∧ isRefundOf cd.orderId t = true) := by
        simp only [isRefundOf, ho, ht, Bool.and_eq_true, decide_eq_true_eq, Option.some.injEq]
        rintro ⟨h₁, h₂, -⟩
        exact hmine ⟨h₁, h₂⟩
      refine settled_same h hkeep ?_ ?_
      · rw [ha.filter_order, if_neg (hburn _), List.append_nil]
      · rw [ha.filter_order, if_neg hrefund, List.append_nil]

end settled

/-! ### Over runs -/

/-- The links hold of empty tables. -/
theorem compensated_start {db : DB} (hl : db.pointsTransactions = [])
    (hd : ∀ id, db.checkoutDebits id = none) : Compensated db := by
  have hledger : ∀ u, db.ledgerOf u = [] := fun u => by unfold DB.ledgerOf; rw [hl]; rfl
  refine ⟨?_, ?_, ?_, ?_, ?_, ?_, ?_⟩
  · simp [hl]
  · simp [hl]
  · simp [hl]
  · intro id d h; rw [hd] at h; cases h
  · rintro id rid ⟨d, h, -⟩; rw [hd] at h; cases h
  · simp [hl]
  · intro u o; unfold DB.orderNet; simp [hledger, pointsOf]

theorem run_compensated (ops : List Op) {db : DB} (hc : Compensated db) :
    Compensated (db.runOps ops) :=
  run_invariant (fun _ _ hI h => compensated_step hI (change_ledger (fun _ _ _ _ => trivial) h)) ops hc

theorem run_settled {cd : PointCommand} {db : DB} (hc : Compensated db) (h : Settled cd db)
    (ops : List Op) (hops : ∀ op ∈ ops, ∀ command, op.Issues command → OnlyDeducts cd command) :
    Settled cd (db.runOps ops) := by
  have hstep : ∀ x x' : DB, Compensated x ∧ Settled cd x →
      Change (fun c => ∀ command, c.Issues command → OnlyDeducts cd command) x x' →
      Compensated x' ∧ Settled cd x' := by
    intro x x' hI hx
    have hs : LedgerStep (OnlyDeducts cd) x x' := change_ledger (fun _ command hc => hc command) hx
    exact ⟨compensated_step hI.1 hs, settled_step hI.1 hI.2 (fun _ => change_keeps hx) hs⟩
  refine (run_invariant_of (I := fun x => Compensated x ∧ Settled cd x) hstep ops ?_ ⟨hc, h⟩).2
  rintro op hop c now rfl command hi
  exact hops _ hop command hi

/-- From empty ledger and registry, after any operations: every debit has its registry row; every
    link names a refund of the same user and order for exactly the debit's points; every refund is
    named once; so two refunds never repay one debit, no order nets more than zero, and an order
    with one deduction and one refund command nets nothing or minus the deduction. -/
theorem checkout_compensation (db : DB) (ops : List Op) (hl : db.pointsTransactions = [])
    (hd : ∀ id, db.checkoutDebits id = none) :
    let after := db.runOps ops
    (after.pointsTransactions.map (·.id)).Nodup ∧
    (∀ t ∈ after.pointsTransactions, t.type = .BURN_DISCOUNT →
      ∃! d, after.checkoutDebits t.id = some d) ∧
    (∀ id rid, after.Links id rid → ∃ debit ∈ after.pointsTransactions,
      ∃ refund ∈ after.pointsTransactions,
        debit.id = id ∧ refund.id = rid ∧ Repays refund debit) ∧
    (∀ r ∈ after.pointsTransactions, r.type = .REFUND → ∃! id, after.Links id r.id) ∧
    (∀ id, ∀ r ∈ after.pointsTransactions, ∀ r' ∈ after.pointsTransactions,
      after.Links id r.id → after.Links id r'.id → r = r') ∧
    (∀ u o, after.orderNet u o ≤ 0) ∧
    ∀ cd cr : PointCommand, cd.operation = .DEDUCT → cr.operation = .REFUND →
      (∀ op ∈ ops, ∀ command, op.Issues command → command.userId = cd.userId →
        command.orderId = cd.orderId → command = cd ∨ command = cr) →
      after.orderNet cd.userId cd.orderId = 0 ∨
        after.orderNet cd.userId cd.orderId = -cd.amount := by
  have hc := compensated_start hl hd
  have hafter := run_compensated ops hc
  refine ⟨hafter.distinct, ?debits, hafter.links, hafter.refunds, ?once, hafter.net, ?fixed⟩
  case debits =>
    intro t ht hty
    obtain ⟨d, hd⟩ := Option.isSome_iff_exists.1 (hafter.debits t ht hty).2
    exact ⟨d, hd, fun d' hd' => Option.some.inj (hd'.symm.trans hd)⟩
  case once =>
    rintro id r hr r' hr' ⟨d, hd, hrid⟩ ⟨d', hd', hrid'⟩
    cases hd.symm.trans hd'
    have hid : r.id = r'.id := Option.some.inj (hrid.symm.trans hrid')
    exact List.inj_on_of_nodup_map hafter.distinct hr hr' hid
  case fixed =>
    intro cd cr hcd hcr hops
    have hledger : db.ledgerOf cd.userId = [] := by unfold DB.ledgerOf; rw [hl]; rfl
    have hstart : Settled cd db := .untouched (by rw [hledger]; rfl) (by rw [hledger]; rfl)
    refine (run_settled hc hstart ops ?_).net
    intro op hop command hi hded hu ho
    rcases hops op hop command hi hu ho with h | h
    · exact h
    · rw [h, hcr] at hded; cases hded

/-- The refund of `deductHundred`. -/
def refundHundred : Call := .refundPoints Uuid.nil.text 100 Uuid.nil.text "r"

/-- A cancelled checkout whose two commands are retried, the first once more after the refund. -/
def cancelledCheckout : List Op :=
  [.call deductHundred 0, .call deductHundred 1, .call refundHundred 2, .call refundHundred 3,
    .call deductHundred 4]

theorem checkout_compensation_cancelled :
    let after := DB.funded.runOps cancelledCheckout
    after.pointsTransactions.map (·.points) = [-100, 100] ∧
      (∀ r ∈ after.pointsTransactions, r.type = .REFUND → ∃! id, after.Links id r.id) ∧
      (after.orderNet .nil .nil = 0 ∨ after.orderNet .nil .nil = -100) := by
  have hall := checkout_compensation DB.funded cancelledCheckout rfl fun _ => rfl
  refine ⟨by decide +kernel, hall.2.2.2.1, hall.2.2.2.2.2.2 ⟨.DEDUCT, .nil, .nil, 100, "k"⟩
    ⟨.REFUND, .nil, .nil, 100, "r"⟩ rfl rfl fun op hop command hi _ _ => ?_⟩
  simp only [cancelledCheckout, List.mem_cons, List.not_mem_nil, or_false] at hop
  rcases hop with rfl | rfl | rfl | rfl | rfl
  · exact .inl (Option.some.inj hi.symm)
  · exact .inl (Option.some.inj hi.symm)
  · exact .inr (Option.some.inj hi.symm)
  · exact .inr (Option.some.inj hi.symm)
  · exact .inl (Option.some.inj hi.symm)

end CinemaLoyalty
