import CinemaLoyalty.Calendar
import Mathlib.Data.Rat.Floor

/-! @svc Schema | layer:model | source:prisma/schema.prisma, src/loyalty/constants, src/loyalty/enums

    The tables the loyalty services write, as rows, and the constants of the program. A uuid column
    holds a value, not a text: texts that differ in case name the same value. Primary keys drawn
    with `uuid()` are modelled as the owner of the row and its position among the owner's rows, so
    they are fresh. Columns that no modelled function reads are left out. -/

namespace CinemaLoyalty

/-! ### Identifiers -/

/-- A digit of a uuid in lower case. -/
def isHexDigit (c : Char) : Bool := c.isDigit || ('a' ≤ c && c ≤ 'f')

/-- The canonical form: 8-4-4-4-12 hexadecimal digits in lower case. -/
def isUuidChars (cs : List Char) : Bool :=
  cs.length = 36 &&
    cs.zipIdx.all fun (c, i) => if i ∈ [8, 13, 18, 23] then c = '-' else isHexDigit c

/-- A uuid value, as its canonical text. -/
structure Uuid where
  text : String
  canonical : isUuidChars text.toList = true
  deriving DecidableEq

/-- The nil value of RFC 9562. -/
def Uuid.nil : Uuid := ⟨"00000000-0000-0000-0000-000000000000", by decide⟩

/-- Two values of version 4. -/
def Uuid.second : Uuid := ⟨"22222222-2222-4222-8222-222222222222", by decide⟩

def Uuid.third : Uuid := ⟨"33333333-3333-4333-8333-333333333333", by decide⟩

/-- Another value of version 4. -/
theorem sampleUuid_canonical : isUuidChars "3f2504e0-4f89-41d3-9a0c-0305e82c3301".toList = true := by
  decide

/-- `toLowerCase` on ASCII text. -/
def toLowerCase (s : String) : String := String.ofList (s.toList.map Char.toLower)

/-- The value a text names, whatever the case of its digits. -/
def Uuid.ofText (s : String) : Option Uuid :=
  if h : isUuidChars (toLowerCase s).toList = true then some ⟨toLowerCase s, h⟩ else none

/-- The version and variant digits of RFC 9562, or the nil value. -/
def isRfcUuidChars (cs : List Char) : Bool :=
  isUuidChars cs &&
    ((cs[14]?.any (fun c => '1' ≤ c && c ≤ '8') && cs[19]?.any (· ∈ ['8', '9', 'a', 'b'])) ||
      cs.all (· ∈ ['0', '-']))

/-- `z.uuid()`: any case, except that the all-ones value is accepted in lower case only. -/
def zodUuid (s : String) : Bool :=
  isRfcUuidChars (toLowerCase s).toList ||
    (isUuidChars s.toList && s.toList.all (· ∈ ['f', '-']))

/-- A text that names a uuid. -/
structure UuidText where
  text : String
  value : Uuid
  named : Uuid.ofText text = some value
  deriving DecidableEq

theorem nilText_named : Uuid.ofText Uuid.nil.text = some .nil := by decide

theorem secondText_named : Uuid.ofText Uuid.second.text = some .second := by decide

theorem thirdText_named : Uuid.ofText Uuid.third.text = some .third := by decide

/-- A generated primary key: the owner of the row and its position among the owner's rows. -/
structure RowId where
  userId : Uuid
  seq : ℕ
  deriving DecidableEq

/-! ### Enumerations -/

/-- `Tier`. -/
inductive Tier | BRONZE | SILVER | GOLD
  deriving DecidableEq, Repr

/-- `EventType` of a purchase. -/
inductive EventType | STANDARD | SPECIAL | PREMIERE
  deriving DecidableEq, Repr

def EventType.text : EventType → String
  | STANDARD => "STANDARD"
  | SPECIAL => "SPECIAL"
  | PREMIERE => "PREMIERE"

/-- `PointsTransactionType` and `AdminTransactionType`: the ledger's `type` column. -/
inductive PointsTransactionType
  | EARN_TICKET | EARN_FOOD | EARN_BIRTHDAY | EARN_SPECIAL | EARN_PROMO | BURN_DISCOUNT
  | BURN_REWARD | EXPIRE | ADJUST | REFUND | EARN_ACHIEVEMENT | ADMIN_ADDITION | ADMIN_DEDUCTION
  deriving DecidableEq, Repr

/-- `GrpcStatus`, the codes the services answer with. -/
inductive GrpcStatus | INVALID_ARGUMENT | NOT_FOUND | ALREADY_EXISTS | INTERNAL
  deriving DecidableEq, Repr

/-- `AchievementAction`. -/
inductive AchievementAction
  | TICKET_PURCHASED | BULK_TICKET_PURCHASED | REVIEW_LEFT | VIP_SEAT_BOUGHT
  deriving DecidableEq, Repr

def AchievementAction.text : AchievementAction → String
  | TICKET_PURCHASED => "TICKET_PURCHASED"
  | BULK_TICKET_PURCHASED => "BULK_TICKET_PURCHASED"
  | REVIEW_LEFT => "REVIEW_LEFT"
  | VIP_SEAT_BOUGHT => "VIP_SEAT_BOUGHT"

/-- `PointCommand['operation']`. -/
inductive PointOperation | DEDUCT | REFUND
  deriving DecidableEq, Repr

/-- `OutboxEventStatus`. -/
inductive OutboxEventStatus | PENDING | PROCESSING | COMPLETED | FAILED
  deriving DecidableEq, Repr

/-! ### Errors -/

/-- `PERMANENT_MESSAGE_CODES`. -/
inductive PermanentMessageCode
  | ACCOUNTING_RANGE_EXCEEDED | INVALID_PURCHASE_PAYLOAD | INVALID_DOB_PAYLOAD
  | INVALID_DATE_OF_BIRTH | PURCHASE_IDEMPOTENCY_CONFLICT
  deriving DecidableEq, Repr

def PermanentMessageCode.text : PermanentMessageCode → String
  | ACCOUNTING_RANGE_EXCEEDED => "ACCOUNTING_RANGE_EXCEEDED"
  | INVALID_PURCHASE_PAYLOAD => "INVALID_PURCHASE_PAYLOAD"
  | INVALID_DOB_PAYLOAD => "INVALID_DOB_PAYLOAD"
  | INVALID_DATE_OF_BIRTH => "INVALID_DATE_OF_BIRTH"
  | PURCHASE_IDEMPOTENCY_CONFLICT => "PURCHASE_IDEMPOTENCY_CONFLICT"

/-- What the database client throws: unique key taken (`P2002`), missing reference (`P2003`), value
    out of the column's range (`P2020`), row to update not found (`P2025`), a text or date that
    PostgreSQL cannot hold (`P2039`), value of the wrong kind. -/
inductive PrismaError | P2002 | P2003 | P2020 | P2025 | P2039 | validation
  deriving DecidableEq, Repr

/-- What a transaction callback throws. -/
inductive TxError
  | rpc (code : GrpcStatus) (message : String)
  | permanent (code : PermanentMessageCode) (message : String)
  | error (message : String)
  | prisma (error : PrismaError)
  | zod
  deriving DecidableEq, Repr

/-! ### Constants -/

/-- `TIER_ORDER`. -/
def TIER_ORDER : Tier → ℕ
  | .BRONZE => 0
  | .SILVER => 1
  | .GOLD => 2

namespace LOYALTY_RULES

def BIRTHDAY_BONUS_POINTS : ℤ := 100
def BIRTHDAY_WEEK_RADIUS_DAYS : ℤ := 3
def SPECIAL_EVENT_MULTIPLIER : ℚ := 2
def MINIMUM_DEDUCTION : ℤ := 75
/-- `TIER_THRESHOLDS`. -/
structure Threshold where
  visits : ℤ
  points : ℤ

def GOLD : Threshold := { visits := 20, points := 5000 }
def SILVER : Threshold := { visits := 8, points := 2000 }

def TIER_MULTIPLIERS : Tier → ℚ
  | .GOLD => 2
  | .SILVER => 3 / 2
  | .BRONZE => 1

def BIRTHDAY_MULTIPLIERS : Tier → ℚ
  | .GOLD => 5
  | .SILVER => 3
  | .BRONZE => 2

end LOYALTY_RULES

namespace ERROR_MESSAGES

def PROFILE_NOT_FOUND := "Loyalty profile not found for user"
def INSUFFICIENT_POINTS := "Insufficient points balance"
def INTERNAL_ERROR := "Internal server error processing loyalty points"
def NOT_GOLD_TIER := "User is not in Gold tier"
def GOLD_QUOTA_EXCEEDED := "Gold upgrade quota already used for this month"
def GOLD_RESERVATION_RELEASED := "Gold upgrade reservation for this order was released"
def GOLD_RESERVATION_NOT_FOUND := "No Gold upgrade reservation for this user and order"
def GOLD_LEGACY_RECONCILIATION := "Gold upgrade quota has an unknown owner; reconciliation required"
def INTERNAL_GOLD_UPGRADE := "Failed to process gold upgrade"
def INTERNAL_GOLD_ROLLBACK := "Failed to rollback gold upgrade"
def INTERNAL_REFUND := "Failed to process refund"
def REFUND_DEBIT_NOT_FOUND := "No successful checkout debit for this user and order"
def REFUND_AMOUNT_MISMATCH := "Refund must equal the full checkout debit amount"
def REFUND_ALREADY_COMPENSATED := "Checkout debit has already been compensated"
def REFUND_RECONCILIATION := "Checkout debit requires reconciliation before refund"
def INVALID_POINT_COMMAND :=
  "Invalid point command: UUID user/order, positive int32 amount and a non-empty key of at most 128 characters are required"
def IDEMPOTENCY_CONFLICT := "Idempotency key is already used for a different request"
def LEGACY_IDEMPOTENCY :=
  "Idempotency key belongs to a legacy or different event; reconciliation required"

end ERROR_MESSAGES

/-- `TRANSACTION_DESCRIPTIONS.POINTS_EXPIRED`. -/
def TRANSACTION_DESCRIPTIONS.POINTS_EXPIRED := "Points expired"

/-- `BIRTHDAY_BONUS_GRANT_TYPE`. -/
def BIRTHDAY_BONUS_GRANT_TYPE := "BIRTHDAY"

/-- `MAX_ACHIEVEMENT_TARGET`. -/
def MAX_ACHIEVEMENT_TARGET : ℤ := 1000000000

/-- `DEFAULT_SUM_VALUE_FIELD`. -/
def DEFAULT_SUM_VALUE_FIELD := "amount"

/-- `length` of a JavaScript string: UTF-16 code units. -/
def jsLength (s : String) : ℕ := (s.toList.map fun c => if c.toNat < 0x10000 then 1 else 2).sum

/-- The range of an `Int` column. -/
def isInt32 (n : ℤ) : Bool := decide (-2147483648 ≤ n) && decide (n ≤ 2147483647)

/-- A `TEXT` column takes every string without U+0000. -/
def isTextColumn (s : String) : Bool := !s.toList.contains '\x00'

/-- A `DATE` column takes the dates from year 1 on; the client writes earlier ones in a form that
    PostgreSQL does not read. -/
def isDateColumn (date : Instant) : Bool := decide (-62135596800000 ≤ date)

/-! ### Rows, without the key columns by which their table is indexed -/

/-- A JSON value. -/
inductive Json
  | null
  | bool (b : Bool)
  | num (n : ℚ)
  | str (s : String)
  | arr (items : List Json)
  | obj (fields : List (String × Json))

mutual
/-- A `JSONB` column takes every value without U+0000. -/
def isJsonbColumn : Json → Bool
  | .null => true
  | .bool _ => true
  | .num _ => true
  | .str s => isTextColumn s
  | .arr items => areJsonbItems items
  | .obj fields => areJsonbFields fields

def areJsonbItems : List Json → Bool
  | [] => true
  | item :: items => isJsonbColumn item && areJsonbItems items

def areJsonbFields : List (String × Json) → Bool
  | [] => true
  | (name, value) :: fields => isTextColumn name && isJsonbColumn value && areJsonbFields fields
end

/-- The value of a field of a JSON object. -/
def Json.field (j : Json) (name : String) : Option Json :=
  match j with
  | .obj fields => (fields.find? (·.1 = name)).map (·.2)
  | _ => none

/-- `LoyaltyProfile`, indexed by `user_id`. -/
structure LoyaltyProfile where
  tier : Tier := .BRONZE
  balance : ℤ := 0
  lifetimePoints : ℤ := 0
  yearPoints : ℤ := 0
  yearVisits : ℤ := 0
  tierExpiresAt : Option Instant := none
  lastActivityAt : Option Instant := none
  balanceExpiresAt : Option Instant := none
  birthdayDate : Option Instant := none
  lastExpiryNotificationAt : Option Instant := none
  goldUpgradeUsedMonth : Option MonthKey := none
  deriving DecidableEq

/-- Every counter fits its column. -/
def LoyaltyProfile.inRange (p : LoyaltyProfile) : Bool :=
  isInt32 p.balance && isInt32 p.lifetimePoints && isInt32 p.yearPoints && isInt32 p.yearVisits

/-- `ProcessedEvent`, indexed by `event_id`. -/
structure ProcessedEvent where
  eventId : String
  operation : Option PointOperation := none
  userId : Option Uuid := none
  orderId : Option Uuid := none
  amount : Option ℤ := none
  balanceAfter : Option ℤ := none
  deriving DecidableEq

/-- The nullable integer columns fit. -/
def ProcessedEvent.inRange (e : ProcessedEvent) : Bool :=
  e.amount.all isInt32 && e.balanceAfter.all isInt32

/-- `PointsTransaction`, kept in commit order; the insert assigns `seq`. -/
structure PointsTransaction where
  seq : ℕ := 0
  userId : Uuid
  type : PointsTransactionType
  points : ℤ
  balanceAfter : ℤ
  orderId : Option Uuid := none
  description : String
  createdAt : Instant
  deriving DecidableEq

/-- The generated primary key of a ledger row. -/
def PointsTransaction.id (t : PointsTransaction) : RowId := ⟨t.userId, t.seq⟩

def PointsTransaction.inRange (t : PointsTransaction) : Bool :=
  isInt32 t.points && isInt32 t.balanceAfter

/-- `CheckoutDebit`, indexed by `debit_id`. -/
structure CheckoutDebit where
  refundId : Option RowId := none
  deriving DecidableEq

/-- `GoldUpgradeReservation`. -/
structure GoldUpgradeReservation where
  userId : Uuid
  month : MonthKey
  orderId : Option Uuid
  releasedAt : Option Instant := none
  deriving DecidableEq

/-- `UserBonusGrant`, indexed by user, type and year. -/
structure UserBonusGrant where
  points : ℤ
  pointsTransactionId : Option RowId
  grantedAt : Instant
  deriving DecidableEq

/-- The payload of a `loyalty.tier_upgraded` event. -/
structure TierUpgradedPayload where
  userId : String
  oldTier : Tier
  newTier : Tier
  deriving DecidableEq

/-- `OutboxEvent`, kept in commit order; every event is a `TIER_UPGRADED` of a profile. The insert
    assigns `seq`. -/
structure OutboxEvent where
  seq : ℕ := 0
  payload : TierUpgradedPayload
  aggregateId : Uuid
  status : OutboxEventStatus := .PENDING
  attempts : ℤ := 0
  maxAttempts : ℤ := 5
  error : Option String := none
  publishedAt : Option Instant := none
  leaseToken : Option ℕ := none
  leaseExpiresAt : Option Instant := none
  nextAttemptAt : Instant
  createdAt : Instant
  deriving DecidableEq

/-- The generated primary key of an outbox row. -/
def OutboxEvent.id (e : OutboxEvent) : RowId := ⟨e.aggregateId, e.seq⟩

/-- `Achievement`. -/
structure Achievement where
  id : Uuid
  code : String
  name : String
  criteria : Json
  rewardPoints : ℤ := 0
  isActive : Bool := true

/-- `UserAchievement`, indexed by user and achievement. -/
structure UserAchievement where
  current : ℤ := 0
  target : ℤ := 1
  isUnlocked : Bool := false
  unlockedAt : Option Instant := none
  deriving DecidableEq

def UserAchievement.inRange (a : UserAchievement) : Bool := isInt32 a.current && isInt32 a.target

/-- `AchievementDispatchIntent`, indexed by user, event and action; the delivery columns belong to
    the dispatcher. -/
structure AchievementDispatchIntent where
  payload : Json

/-! ### Identifiers, facts -/

theorem Uuid.ofText_text {s : String} {u : Uuid} (h : Uuid.ofText s = some u) :
    u.text = toLowerCase s := by
  unfold Uuid.ofText at h
  split at h
  · cases h; rfl
  · cases h

theorem uuid_length (u : Uuid) : u.text.toList.length = 36 := by
  have h := u.canonical
  unfold isUuidChars at h
  rw [Bool.and_eq_true, decide_eq_true_iff] at h
  exact h.1

theorem uuidText_length (t : UuidText) : t.text.toList.length = 36 := by
  have h := uuid_length t.value
  rw [Uuid.ofText_text t.named] at h
  unfold toLowerCase at h
  rwa [String.toList_ofList, List.length_map] at h

/-- In lower case the text of a uuid consists of dashes and digits. -/
theorem uuidText_digits (t : UuidText) {c : Char} (hc : c ∈ t.text.toList) :
    c.toLower = '-' ∨ isHexDigit c.toLower = true := by
  have hcanonical := t.value.canonical
  rw [Uuid.ofText_text t.named] at hcanonical
  unfold isUuidChars toLowerCase at hcanonical
  rw [String.toList_ofList, Bool.and_eq_true, List.all_eq_true] at hcanonical
  obtain ⟨i, hi⟩ := List.mem_iff_getElem?.1 (List.mem_map_of_mem (f := Char.toLower) hc)
  have hdigit := hcanonical.2 (c.toLower, i) (List.mk_mem_zipIdx_iff_getElem?.2 hi)
  simp only at hdigit
  split at hdigit
  · exact .inl (by simpa using hdigit)
  · exact .inr hdigit

/-- A column holds the text of every uuid. -/
theorem uuidText_column (t : UuidText) : isTextColumn t.text = true := by
  unfold isTextColumn
  rw [Bool.not_eq_true', ← Bool.not_eq_true, List.contains_iff_mem]
  intro hc
  exact absurd (uuidText_digits t hc) (by decide)

/-- White space is no digit and no dash, in any case. -/
theorem toLower_whitespace {c : Char} (h : jsWhitespace c = true) :
    isHexDigit c.toLower = false ∧ c.toLower ≠ '-' := by
  unfold jsWhitespace at h
  simp only [Bool.or_eq_true, decide_eq_true_eq, Bool.and_eq_true, List.mem_cons, List.not_mem_nil,
    or_false] at h
  rcases h with h | ⟨hfrom, -⟩
  · rcases h with rfl | rfl | rfl | rfl | rfl | rfl | rfl | rfl | rfl | rfl | rfl | rfl | rfl | rfl <;>
      decide
  · have hbig : 8192 ≤ c.val.toNat := UInt32.le_iff_toNat_le.1 hfrom
    have hlow : c.toLower = c := by
      unfold Char.toLower
      rw [dif_neg]
      rintro ⟨-, hz⟩
      have : c.val.toNat ≤ 90 := UInt32.le_iff_toNat_le.1 hz
      omega
    rw [hlow]
    refine ⟨?_, ?_⟩
    · unfold isHexDigit Char.isDigit
      simp only [Bool.or_eq_false_iff, Bool.and_eq_false_iff, decide_eq_false_iff_not]
      refine ⟨.inr fun hd => ?_, .inr fun hf => ?_⟩
      · have : c.val.toNat ≤ 57 := UInt32.le_iff_toNat_le.1 hd
        omega
      · have : c.val.toNat ≤ 102 := UInt32.le_iff_toNat_le.1 hf
        omega
    · rintro rfl
      revert hbig
      decide

/-- The text of a uuid has no white space. -/
theorem uuidText_chars (t : UuidText) : ∀ c ∈ t.text.toList, jsWhitespace c = false := by
  intro c hc
  rw [← Bool.not_eq_true]
  intro hw
  obtain ⟨hhex, hdash⟩ := toLower_whitespace hw
  rcases uuidText_digits t hc with hdigit | hdigit
  · exact hdash hdigit
  · rw [hhex] at hdigit
    cases hdigit

/-- Nothing is trimmed from a uuid with a suffix. -/
theorem jsTrim_uuid (t : UuidText) {suffix : String}
    (h : suffix.toList.all (!jsWhitespace ·) = true) : jsTrim (t.text ++ suffix) = t.text ++ suffix := by
  refine jsTrim_self fun c hc => ?_
  rw [String.toList_append, List.mem_append] at hc
  exact hc.elim (uuidText_chars t c) fun hs => by simpa using List.all_eq_true.1 h c hs

theorem isTextColumn_append (s t : String) :
    isTextColumn (s ++ t) = (isTextColumn s && isTextColumn t) := by
  unfold isTextColumn
  rw [String.toList_append, List.contains_append, Bool.not_or]

/-- Digits are no U+0000. -/
theorem repr_column (n : ℕ) : isTextColumn n.repr = true := by
  unfold isTextColumn
  rw [Bool.not_eq_true', ← Bool.not_eq_true, List.contains_iff_mem, Nat.toList_repr]
  intro hc
  exact absurd (Nat.isDigit_of_mem_toDigits (by decide) (by decide) hc) (by decide)

theorem toString_column (n : ℤ) : isTextColumn (toString n) = true := by
  cases n with
  | ofNat n => exact repr_column n
  | negSucc n =>
    have hsign : isTextColumn "-" = true := by decide
    change isTextColumn ("-" ++ (n + 1).repr) = true
    rw [isTextColumn_append, hsign, repr_column, Bool.and_true]

example : (Uuid.ofText "8C7D1A52-0B7E-4B3F-9C55-1E5A6B7C8D9E").isSome = true := by decide

end CinemaLoyalty
