import CinemaLoyalty.Calculator
import CinemaLoyalty.PointCommands
import CinemaLoyalty.Achievements

/-! @svc Purchase | layer:model | source:src/loyalty/loyalty.service.ts (processTicketPurchase), src/loyalty/dto/ticked-purchased.dto.ts

    A paid ticket event: the marker check, the award, the range checks, the tier, the ledger row,
    the marker, the tier event and the achievement intents, in the order of the source. An amount is
    the exact value of the number received; its product with the multiplier is rounded as a double. -/

namespace CinemaLoyalty
open Txn

/-- An optional field of a message: left out, `null`, or given. -/
inductive Supplied (α : Type)
  | absent
  | null
  | value (a : α)

/-- The given value. -/
def Supplied.get? {α : Type} : Supplied α → Option α
  | .value a => some a
  | _ => none

/-- A field that is present in a JSON object unless it was left out. -/
def Supplied.toField {α : Type} (name : String) (toJson : α → Json) :
    Supplied α → List (String × Json)
  | .absent => []
  | .null => [(name, .null)]
  | .value a => [(name, toJson a)]

/-- `TicketPurchasedDto` after validation; `@Min(0)` on the amounts is part of the value. A seat class
    with half a surrogate pair counts as one with U+0000, which no column holds either. -/
structure TicketPurchasedDto where
  eventId : UuidText
  userId : UuidText
  orderId : UuidText
  totalAmount : ℚ
  eventType : EventType
  paidAmount : Supplied ℚ := .absent
  pointsUsed : Supplied ℚ := .absent
  seatClass : Supplied String := .absent
  total_nonneg : 0 ≤ totalAmount
  paid_nonneg : ∀ a, paidAmount.get? = some a → 0 ≤ a
  used_nonneg : ∀ a, pointsUsed.get? = some a → 0 ≤ a

/-- `Math.trunc`. -/
def jsTrunc (q : ℚ) : ℤ := if 0 ≤ q then ⌊q⌋ else -⌊-q⌋

/-- `findFirst` in descending order of `createdAt`; among equals the row committed last. -/
def latest (rows : List PointsTransaction) : Option PointsTransaction :=
  rows.foldl (fun best t =>
    match best with
    | none => some t
    | some b => if b.createdAt ≤ t.createdAt then some t else some b) none

/-- `resolvePointsUsedForOrder`. -/
def resolvePointsUsedForOrder (msg : TicketPurchasedDto) : Tx ℤ :=
  match msg.pointsUsed with
  | .value q => return jsTrunc q
  | .null => return 0
  | .absent => do
    let rows ← Prog.call (.findTransactions msg.userId.value (isDebitOf msg.orderId.value))
    return |((latest rows).map (·.points)).getD 0|

/-- `assertAccountingInteger`. -/
def assertAccountingInteger (n : ℤ) : Tx Unit :=
  if isInt32 n then .pure ()
  else .throw (.permanent .ACCOUNTING_RANGE_EXCEEDED PermanentMessageCode.ACCOUNTING_RANGE_EXCEEDED.text)

/-- `msg.paidAmount ?? msg.totalAmount`. -/
def TicketPurchasedDto.amountToReward (msg : TicketPurchasedDto) : ℚ :=
  msg.paidAmount.get?.getD msg.totalAmount

/-- `Math.floor(amount * multiplier)`. A product beyond the doubles is an infinity, which the range
    checks refuse like the number that stands for it here. -/
def floorProduct (amount multiplier : ℚ) : ℤ :=
  match JsNumber.ofRat (amount * multiplier) with
  | .fin product => ⌊product⌋
  | _ => 2 ^ 1024

/-- The points of a purchase: none once loyalty points were used for the order. -/
def pointsEarnedFor (msg : TicketPurchasedDto) (profile : LoyaltyProfile) (pointsUsed : ℤ)
    (now : Instant) : ℤ :=
  if pointsUsed > 0 then 0
  else floorProduct msg.amountToReward (resolveMultiplier profile msg.eventType now)

/-- The profile update of a purchase. -/
def LoyaltyProfile.purchase (profile : LoyaltyProfile) (pointsEarned : ℤ) (newTier : Tier)
    (now : Instant) (p : LoyaltyProfile) : LoyaltyProfile :=
  let p := { p with
    yearVisits := profile.yearVisits + 1
    tier := newTier
    lastActivityAt := some now }
  if pointsEarned > 0 then
    { p with
      balance := profile.balance + pointsEarned
      lifetimePoints := profile.lifetimePoints + pointsEarned
      yearPoints := profile.yearPoints + pointsEarned
      balanceExpiresAt := some (addYears now 1) }
  else p

/-- The `TIER_UPGRADED` row of a profile. -/
def tierUpgraded (userId : UuidText) (oldTier newTier : Tier) (now : Instant) : OutboxEvent where
  payload := { userId := userId.text, oldTier, newTier }
  aggregateId := userId.value
  nextAttemptAt := now
  createdAt := now

/-- The metadata shared by the events of a purchase. -/
def purchaseMetadata (msg : TicketPurchasedDto) (pointsUsed : ℤ) : List (String × Json) :=
  [("amount", .num msg.totalAmount), ("pointsUsed", .num pointsUsed)] ++
    msg.paidAmount.toField "paidAmount" .num

/-- The achievement events of a purchase. -/
def purchaseEvents (msg : TicketPurchasedDto) (pointsUsed : ℤ) : List ActionEvent :=
  let metadata := purchaseMetadata msg pointsUsed
  { eventId := msg.orderId.text
    userId := msg.userId.text
    actionType := .TICKET_PURCHASED
    metadata := some (metadata ++ [("eventType", .str msg.eventType.text)] ++
      msg.seatClass.toField "seatClass" .str) } ::
    if msg.seatClass.get? = some "VIP" then
      [{ eventId := msg.orderId.text ++ "_vip"
         userId := msg.userId.text
         actionType := .VIP_SEAT_BOUGHT
         metadata := some metadata }]
    else []

/-- The range checks of a purchase: totals that do not change are not checked. -/
def assertPurchaseRange (profile : LoyaltyProfile) (pointsEarned : ℤ) : Tx Unit := do
  assertAccountingInteger pointsEarned
  assertAccountingInteger (profile.yearVisits + 1)
  if pointsEarned > 0 then
    assertAccountingInteger (profile.balance + pointsEarned)
    assertAccountingInteger (profile.lifetimePoints + pointsEarned)
    assertAccountingInteger (profile.yearPoints + pointsEarned)

/-- The ledger row of a purchase. -/
def TicketPurchasedDto.earnedRow (msg : TicketPurchasedDto) (pointsEarned newBalance : ℤ)
    (now : Instant) : PointsTransaction where
  userId := msg.userId.value
  type := resolveTransactionType msg.eventType
  points := pointsEarned
  balanceAfter := newBalance
  orderId := some msg.orderId.value
  description := "Earned " ++ toString pointsEarned ++ " pts for order " ++ msg.orderId.text ++
    " (" ++ msg.eventType.text ++ ")"
  createdAt := now

/-- `if (pointsEarned > 0)`: the ledger row. -/
def recordEarned (msg : TicketPurchasedDto) (pointsEarned newBalance : ℤ) (now : Instant) :
    Tx Unit :=
  if pointsEarned > 0 then do
    let _ ← Prog.call (.createTransaction (msg.earnedRow pointsEarned newBalance now))
  else return ()

/-- `if (newTier !== profile.tier)`: the outbox row. -/
def announceTier (userId : UuidText) (oldTier newTier : Tier) (now : Instant) : Tx Unit :=
  if newTier ≠ oldTier then Prog.call (.createOutbox (tierUpgraded userId oldTier newTier now))
  else return ()

/-- `processTicketPurchase`. -/
def processTicketPurchase (msg : TicketPurchasedDto) (now : Instant) : Tx Unit := do
  let _ ← lockLoyaltyProfile msg.userId.value true
  let alreadyProcessed ← Prog.call (.findEvent msg.eventId.text)
  match alreadyProcessed with
  | some alreadyProcessed =>
    if alreadyProcessed.operation ≠ none then
      .throw (.permanent .PURCHASE_IDEMPOTENCY_CONFLICT ERROR_MESSAGES.IDEMPOTENCY_CONFLICT)
    else return ()
  | none =>
    let profile ← Prog.call (.findProfile msg.userId.value)
    match profile with
    | none => .throw (.prisma .P2025)
    | some profile =>
      let pointsUsed ← resolvePointsUsedForOrder msg
      let pointsEarned := pointsEarnedFor msg profile pointsUsed now
      assertPurchaseRange profile pointsEarned
      let newTier :=
        resolveNewTier profile.tier (profile.yearVisits + 1) (profile.yearPoints + pointsEarned)
      let _ ← Prog.call (.updateProfile msg.userId.value
        (profile.purchase pointsEarned newTier now))
      recordEarned msg pointsEarned (profile.balance + pointsEarned) now
      Prog.call (.createEvent { eventId := msg.eventId.text })
      announceTier msg.userId profile.tier newTier now
      saveDispatchIntents msg.userId.value (purchaseEvents msg pointsUsed)

/-! ### What a purchase does -/

section effect
variable {α : Type} {db db' : DB} {r : α × DB} {msg : TicketPurchasedDto} {now : Instant}

/-- The points already used for the order of a message. -/
def DB.pointsUsedFor (db : DB) (msg : TicketPurchasedDto) : ℤ :=
  match msg.pointsUsed with
  | .value q => jsTrunc q
  | .null => 0
  | .absent =>
    |((latest ((db.ledgerOf msg.userId.value).filter (isDebitOf msg.orderId.value))).map
      (·.points)).getD 0|

theorem run_resolvePointsUsed (k : ℤ → Tx α) :
    db.run (resolvePointsUsedForOrder msg >>= k) = db.run (k (db.pointsUsedFor msg)) := by
  unfold resolvePointsUsedForOrder DB.pointsUsedFor
  cases msg.pointsUsed <;> rfl

theorem assert_ok {n : ℤ} {k : Unit → Tx α}
    (h : db.run (assertAccountingInteger n >>= k) = .ok r) :
    isInt32 n = true ∧ db.run (k ()) = .ok r := by
  unfold assertAccountingInteger at h
  split at h
  · rename_i hn
    exact ⟨hn, h⟩
  · cases h

/-- The values a purchase checks before it writes. -/
structure PurchaseInRange (p : LoyaltyProfile) (pointsEarned : ℤ) : Prop where
  points : isInt32 pointsEarned = true
  visits : isInt32 (p.yearVisits + 1) = true
  totals : pointsEarned > 0 → isInt32 (p.balance + pointsEarned) = true ∧
    isInt32 (p.lifetimePoints + pointsEarned) = true ∧ isInt32 (p.yearPoints + pointsEarned) = true

theorem assertPurchaseRange_ok {p : LoyaltyProfile} {n : ℤ} {k : Unit → Tx α}
    (h : db.run (assertPurchaseRange p n >>= k) = .ok r) :
    PurchaseInRange p n ∧ db.run (k ()) = .ok r := by
  unfold assertPurchaseRange at h
  simp only [Prog.bind_assoc] at h
  obtain ⟨hpoints, h⟩ := assert_ok h
  obtain ⟨hvisits, h⟩ := assert_ok h
  split at h
  · simp only [Prog.bind_assoc] at h
    obtain ⟨hb, h⟩ := assert_ok h
    obtain ⟨hl, h⟩ := assert_ok h
    obtain ⟨hy, h⟩ := assert_ok h
    exact ⟨⟨hpoints, hvisits, fun _ => ⟨hb, hl, hy⟩⟩, h⟩
  · rename_i hpos
    exact ⟨⟨hpoints, hvisits, fun hp => absurd hp hpos⟩, h⟩

/-- The profile and ledger rows of a purchase that earned `pointsEarned`. -/
def DB.credited (db : DB) (msg : TicketPurchasedDto) (pointsEarned : ℤ) (newTier : Tier)
    (now : Instant) : DB :=
  let p := db.profileOrDefault msg.userId.value
  let db₁ := (db.ensureProfile msg.userId.value).apply
    (.updateProfile msg.userId.value (p.purchase pointsEarned newTier now p))
  if pointsEarned > 0 then db₁.post (msg.earnedRow pointsEarned (p.balance + pointsEarned) now)
  else db₁

/-- The database after the `TIER_UPGRADED` row, if the tier changed. -/
def DB.announced (db : DB) (userId : UuidText) (oldTier newTier : Tier) (now : Instant) : DB :=
  if newTier ≠ oldTier then
    db.apply (.outbox { tierUpgraded userId oldTier newTier now with
      seq := (db.outboxOf userId.value).length })
  else db

/-- The tier after a purchase. -/
def LoyaltyProfile.purchaseTier (p : LoyaltyProfile) (pointsEarned : ℤ) : Tier :=
  resolveNewTier p.tier (p.yearVisits + 1) (p.yearPoints + pointsEarned)

/-- The database after a purchase, up to its achievement intents. -/
def DB.purchased (db : DB) (msg : TicketPurchasedDto) (pointsEarned : ℤ) (now : Instant) : DB :=
  let p := db.profileOrDefault msg.userId.value
  let newTier := p.purchaseTier pointsEarned
  ((db.credited msg pointsEarned newTier now).apply
    (.event { eventId := msg.eventId.text })).announced msg.userId p.tier newTier now

/-- The two ways a purchase event succeeds: its marker was there, or it is processed in full. -/
inductive PurchaseOutcome (db : DB) (msg : TicketPurchasedDto) (now : Instant) : DB → Prop
  | duplicate {e : ProcessedEvent} (hb : db.processedEvents msg.eventId.text = some e)
      (ho : e.operation = none) : PurchaseOutcome db msg now (db.ensureProfile msg.userId.value)
  | processed {pointsEarned : ℤ} {rows : List (String × AchievementAction × Json)}
      (hn : db.processedEvents msg.eventId.text = none)
      (he : pointsEarned = pointsEarnedFor msg (db.profileOrDefault msg.userId.value)
        (db.pointsUsedFor msg) now)
      (hr : PurchaseInRange (db.profileOrDefault msg.userId.value) pointsEarned)
      (hrows : intentRows (purchaseEvents msg (db.pointsUsedFor msg)) = .pure rows) :
      PurchaseOutcome db msg now
        ((db.purchased msg pointsEarned now).withIntents msg.userId.value rows)

theorem intentRows_final (events : List ActionEvent) :
    (∃ rows, intentRows events = .pure rows) ∨ ∃ e, intentRows events = .throw e := by
  induction events with
  | nil => exact .inl ⟨[], rfl⟩
  | cons event events ih =>
    unfold intentRows
    cases event.parse with
    | none => exact .inr ⟨.zod, rfl⟩
    | some validated =>
      rcases ih with ⟨rows, hr⟩ | ⟨e, hr⟩
      · exact .inl ⟨_, by simp only [hr]; rfl⟩
      · exact .inr ⟨e, by simp only [hr]; rfl⟩

theorem saveDispatchIntents_ok {u : Uuid} {events : List ActionEvent} {a : Unit}
    (h : db.run (saveDispatchIntents u events) = .ok (a, db')) :
    ∃ rows, intentRows events = .pure rows ∧ db' = db.withIntents u rows := by
  unfold saveDispatchIntents at h
  rcases intentRows_final events with ⟨rows, hr⟩ | ⟨e, hr⟩
  · rw [hr, Prog.pure_bind] at h
    obtain ⟨-, h⟩ := createManyIntents_ok h
    cases h
    exact ⟨rows, hr, rfl⟩
  · rw [hr, Prog.throw_bind] at h
    cases h

/-- Whatever is not the outbox is untouched by the announcement. -/
theorem announced_unchanged {β : Type} {f : DB → β} {userId : UuidText} {oldTier newTier : Tier}
    (h : ∀ (x : DB) e, f (x.apply (.outbox e)) = f x) :
    f (db.announced userId oldTier newTier now) = f db := by
  unfold DB.announced
  split
  · exact h _ _
  · rfl

section announced
variable {userId : UuidText} {oldTier newTier : Tier}

@[simp] theorem announced_profiles :
    (db.announced userId oldTier newTier now).profiles = db.profiles :=
  announced_unchanged fun _ _ => rfl

@[simp] theorem announced_processedEvents :
    (db.announced userId oldTier newTier now).processedEvents = db.processedEvents :=
  announced_unchanged fun _ _ => rfl

@[simp] theorem announced_pointsTransactions :
    (db.announced userId oldTier newTier now).pointsTransactions = db.pointsTransactions :=
  announced_unchanged fun _ _ => rfl

@[simp] theorem announced_ledgerOf (u : Uuid) :
    (db.announced userId oldTier newTier now).ledgerOf u = db.ledgerOf u :=
  announced_unchanged (f := fun x => x.ledgerOf u) fun _ _ => rfl

@[simp] theorem announced_checkoutDebits :
    (db.announced userId oldTier newTier now).checkoutDebits = db.checkoutDebits :=
  announced_unchanged fun _ _ => rfl

@[simp] theorem announced_userBonusGrants :
    (db.announced userId oldTier newTier now).userBonusGrants = db.userBonusGrants :=
  announced_unchanged fun _ _ => rfl

@[simp] theorem announced_reservations :
    (db.announced userId oldTier newTier now).goldUpgradeReservations = db.goldUpgradeReservations :=
  announced_unchanged fun _ _ => rfl

@[simp] theorem announced_intents :
    (db.announced userId oldTier newTier now).achievementDispatchIntents =
      db.achievementDispatchIntents :=
  announced_unchanged fun _ _ => rfl

@[simp] theorem announced_userAchievements :
    (db.announced userId oldTier newTier now).userAchievements = db.userAchievements :=
  announced_unchanged fun _ _ => rfl

end announced

@[simp] theorem run_announceTier {userId : UuidText} {oldTier newTier : Tier} (k : Unit → Tx α) :
    db.run (announceTier userId oldTier newTier now >>= k) =
      (db.announced userId oldTier newTier now).run (k ()) := by
  unfold announceTier DB.announced
  split <;> rfl

theorem recordEarned_ok {n b : ℤ} {k : Unit → Tx α}
    (h : db.run (recordEarned msg n b now >>= k) = .ok r) :
    (if n > 0 then db.post (msg.earnedRow n b now) else db).run (k ()) = .ok r := by
  unfold recordEarned at h
  split at h
  · rename_i hn
    obtain ⟨t, rfl, -, h⟩ := createTransaction_ok h
    rw [if_pos hn]
    exact h
  · rename_i hn
    rw [if_neg hn]
    exact h

theorem processTicketPurchase_ok {a : Unit}
    (h : db.run (processTicketPurchase msg now) = .ok (a, db')) :
    PurchaseOutcome db msg now db' := by
  unfold processTicketPurchase at h
  simp only [run_lock_create, Prog.call_bind] at h
  rw [run_findEvent (uuidText_column _), ensureProfile_processedEvents] at h
  cases hk : db.processedEvents msg.eventId.text with
  | some e =>
    simp only [hk] at h
    split at h
    · cases h
    · rename_i ho
      cases h
      exact .duplicate hk (not_not.1 ho)
  | none =>
    simp only [hk, run_findProfile, ensureProfile_profiles, if_true, run_resolvePointsUsed] at h
    have hused : (db.ensureProfile msg.userId.value).pointsUsedFor msg = db.pointsUsedFor msg := by
      unfold DB.pointsUsedFor; simp only [ensureProfile_ledgerOf]
    rw [hused] at h
    generalize he : pointsEarnedFor msg (db.profileOrDefault msg.userId.value)
      (db.pointsUsedFor msg) now = pointsEarned at h
    obtain ⟨hrange, h⟩ := assertPurchaseRange_ok h
    obtain ⟨q, hq, -, h⟩ := updateProfile_ok h
    simp only [ensureProfile_profiles, if_true, Option.some.injEq] at hq
    subst hq
    replace h := recordEarned_ok h
    obtain ⟨-, h⟩ := createEvent_ok h
    rw [run_announceTier] at h
    obtain ⟨rows, hrows, rfl⟩ := saveDispatchIntents_ok h
    exact .processed hk he.symm hrange hrows

end effect

end CinemaLoyalty
