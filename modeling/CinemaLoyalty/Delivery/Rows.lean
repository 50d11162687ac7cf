import CinemaLoyalty.Schema
import CinemaLoyalty.Lib.Leasing

/-! @svc DeliveryRows | layer:model | source:src/loyalty/consumers/rmq-delivery.service.ts, src/loyalty/consumers/message-failure.ts, src/loyalty/consumers/quarantine-replay.service.ts, prisma/migrations/20261021010000_inbound_delivery_budget/migration.sql

    The journal of inbound deliveries: one row for the bytes of a message, and the statements that
    move it. PostgreSQL compares a lease with `statement_timestamp()` in some statements and with
    `clock_timestamp()` in others; a statement therefore gets both, the time it was received and the
    time it takes effect. -/

namespace CinemaLoyalty
open Leasing

/-- `TIMESTAMPTZ`: microseconds. -/
abbrev Timestamp := ℤ

/-- `${n} * interval '1 millisecond'`. -/
def milliseconds (n : ℤ) : Timestamp := n * 1000

/-- `Buffer`. -/
abbrev Buffer := List UInt8

/-- `Operation`. -/
inductive Operation | TicketPurchased | UserDateOfBirthSet
  deriving DecidableEq, Repr

/-- `RmqDeliveryConfig` as the environment schema admits it; `prefetch` belongs to the broker. -/
structure RmqDeliveryConfig where
  maxAttempts : ℤ := 3
  retryBaseMs : ℤ := 1000
  retryMaxMs : ℤ := 30000
  leaseMs : ℤ := 30000
  maxAttempts_range : 1 ≤ maxAttempts ∧ maxAttempts ≤ 10 := by decide
  retryBaseMs_range : 50 ≤ retryBaseMs ∧ retryBaseMs ≤ retryMaxMs := by decide
  leaseMs_range : 10000 ≤ leaseMs ∧ leaseMs ≤ 300000 := by decide

/-- `RmqDeliveryService.backoff`. -/
def RmqDeliveryConfig.backoff (options : RmqDeliveryConfig) (attempt : ℤ) : ℤ :=
  min options.retryMaxMs (options.retryBaseMs * 2 ^ (min (max (attempt - 1) 0) 16).toNat)

/-! ### Failures -/

/-- What `work` can throw, as far as the classification looks at it. -/
inductive Thrown
  | permanentMessage (code : PermanentMessageCode)
  | coded (code : String)
  | other

/-- `kind` of a classified failure. -/
inductive FailureKind | permanent | transient | unknown
  deriving DecidableEq

/-- A classified failure. -/
structure Failure where
  kind : FailureKind
  code : String
  deriving DecidableEq

/-- `classifyMessageFailure`. -/
def classifyMessageFailure : Thrown → Failure
  | .permanentMessage code => ⟨.permanent, code.text⟩
  | .coded code =>
    if code = "P2020" then ⟨.permanent, "ACCOUNTING_RANGE_EXCEEDED"⟩
    else if code ∈ ["P1001", "P1002", "P1008", "P1017", "P2024", "P2034", "ECONNRESET", "ETIMEDOUT"]
      then ⟨.transient, "TRANSIENT_PROCESSING_FAILURE"⟩
    else ⟨.unknown, "UNEXPECTED_PROCESSING_FAILURE"⟩
  | .other => ⟨.unknown, "UNEXPECTED_PROCESSING_FAILURE"⟩

/-! ### Rows -/

/-- A row of `inbound_deliveries`. Token and expiry are null together
    (`inbound_delivery_lease_pair`), so they are one column here. -/
structure InboundDelivery where
  operation : Operation
  attempts : ℤ := 0
  maxAttempts : ℤ
  nextAttemptAt : Timestamp
  lease : Option (Lease ℕ Timestamp) := none
  completedAt : Option Timestamp := none
  quarantineRequired : Bool := false
  quarantinedAt : Option Timestamp := none
  errorCode : Option String := none
  originalBody : Option Buffer := none
  replayId : Option Uuid := none

namespace InboundDelivery

/-- `lease_expires_at IS NULL OR lease_expires_at <= t`. -/
def LeaseOver (row : InboundDelivery) (t : Timestamp) : Prop :=
  ∀ l ∈ row.lease, l.expiresAt ≤ t

instance (row : InboundDelivery) (t : Timestamp) : Decidable (row.LeaseOver t) :=
  inferInstanceAs (Decidable (∀ l ∈ row.lease, l.expiresAt ≤ t))

/-- `lease_token = token AND lease_expires_at > t`. -/
def OwnedBy (row : InboundDelivery) (token : ℕ) (t : Timestamp) : Prop :=
  ∃ l ∈ row.lease, l.token = token ∧ t < l.expiresAt

instance (row : InboundDelivery) (token : ℕ) (t : Timestamp) : Decidable (row.OwnedBy token t) :=
  inferInstanceAs (Decidable (∃ l ∈ row.lease, l.token = token ∧ t < l.expiresAt))

/-- The admission's `ON CONFLICT (id) DO UPDATE`. -/
def restart (maxAttempts : ℤ) (now : Timestamp) (row : InboundDelivery) : Option InboundDelivery :=
  if row.operation = .UserDateOfBirthSet ∧ row.completedAt.isSome then
    some { row with
      attempts := 0
      maxAttempts := maxAttempts
      completedAt := none
      nextAttemptAt := now }
  else none

/-- `claim`. -/
def claim (leaseMs : ℤ) (token : ℕ) (received now : Timestamp) (row : InboundDelivery) :
    Option InboundDelivery :=
  if row.attempts < row.maxAttempts ∧ row.quarantineRequired = false ∧ row.completedAt = none ∧
      row.quarantinedAt = none ∧ row.nextAttemptAt ≤ received ∧ row.LeaseOver received then
    some { row with
      attempts := row.attempts + 1
      lease := some ⟨token, now + milliseconds leaseMs⟩ }
  else none

/-- The failure record of `handle`. -/
def recordFailure (token : ℕ) (code : String) (terminal : Bool) (waitMs : ℤ) (now : Timestamp)
    (row : InboundDelivery) : Option InboundDelivery :=
  if row.OwnedBy token now ∧ row.completedAt = none ∧ row.quarantinedAt = none then
    some { row with
      errorCode := some code
      quarantineRequired := terminal
      nextAttemptAt := now + milliseconds waitMs
      lease := none }
  else none

/-- The completion record of `handle`. -/
def recordCompletion (token : ℕ) (now : Timestamp) (row : InboundDelivery) :
    Option InboundDelivery :=
  if row.OwnedBy token now ∧ row.completedAt = none ∧ row.quarantinedAt = none then
    some { row with completedAt := some now, lease := none }
  else none

/-- `quarantine`. -/
def quarantine (body : Buffer) (received now : Timestamp) (row : InboundDelivery) :
    Option InboundDelivery :=
  if row.completedAt = none ∧ row.quarantinedAt = none ∧
      (row.quarantineRequired = true ∨ row.maxAttempts ≤ row.attempts) ∧ row.LeaseOver received then
    some { row with
      quarantineRequired := true
      quarantinedAt := some now
      errorCode := some (row.errorCode.getD "DELIVERY_ATTEMPTS_EXHAUSTED")
      originalBody := some body
      lease := none }
  else none

/-- The reset of `QuarantineReplayService.replay`. -/
def replay (replayId : Uuid) (now : Timestamp) (row : InboundDelivery) : Option InboundDelivery :=
  if row.quarantinedAt.isSome ∧ row.replayId ≠ some replayId ∧ row.LeaseOver now then
    some { row with
      replayId := some replayId
      attempts := 0
      quarantineRequired := false
      quarantinedAt := none
      completedAt := none
      errorCode := none
      lease := none
      nextAttemptAt := now }
  else none

end InboundDelivery

/-- `DeliveryState`, what `read` selects. -/
structure DeliveryState where
  attempts : ℤ
  maxAttempts : ℤ
  leaseToken : Option ℕ
  leaseActive : Bool
  waitMs : ℤ
  completedAt : Option Timestamp
  quarantinedAt : Option Timestamp
  quarantineRequired : Bool
  errorCode : Option String

/-- `read`; the cast to `integer` rounds half a millisecond up. -/
def InboundDelivery.read (options : RmqDeliveryConfig) (received : Timestamp)
    (row : InboundDelivery) : DeliveryState :=
  let due := match row.lease with
    | some l => max row.nextAttemptAt l.expiresAt
    | none => row.nextAttemptAt
  { attempts := row.attempts
    maxAttempts := row.maxAttempts
    leaseToken := row.lease.map (·.token)
    leaseActive := row.lease.any (received < ·.expiresAt)
    waitMs := (min (milliseconds options.retryMaxMs) (max 0 (due - received)) + 500) / 1000
    completedAt := row.completedAt
    quarantinedAt := row.quarantinedAt
    quarantineRequired := row.quarantineRequired
    errorCode := row.errorCode }

/-! ### Statements -/

/-- The statements that write a row of the journal. -/
inductive Statement
  | insert (operation : Operation) (maxAttempts : ℤ)
  | claim (leaseMs : ℤ)
  | recordFailure (token : ℕ) (code : String) (terminal : Bool) (waitMs : ℤ)
  | recordCompletion (token : ℕ)
  | quarantine (body : Buffer)
  | replay (replayId : Uuid)

/-- The row a statement leaves, when it inserts it or its condition selects it. `token` is what
    `gen_random_uuid()` answers. -/
def Statement.write (token : ℕ) (received now : Timestamp) :
    Statement → Option InboundDelivery → Option InboundDelivery
  | .insert operation maxAttempts, none => some { operation, maxAttempts, nextAttemptAt := received }
  | .insert _ maxAttempts, some row => row.restart maxAttempts now
  | .claim leaseMs, row => row.bind (·.claim leaseMs token received now)
  | .recordFailure owner code terminal waitMs, row =>
    row.bind (·.recordFailure owner code terminal waitMs now)
  | .recordCompletion owner, row => row.bind (·.recordCompletion owner now)
  | .quarantine body, row => row.bind (·.quarantine body received now)
  | .replay replayId, row => row.bind (·.replay replayId now)

/-- What a statement that wrote does to the history of its row. -/
inductive RowEvent
  | lease (e : Leasing.Event ℕ Timestamp)
  | quarantined (originalBody : Option Buffer)
  deriving DecidableEq

/-- The event of a statement that left `row`. -/
def Statement.event (token : ℕ) (now : Timestamp) : Statement → InboundDelivery → RowEvent
  | .insert _ _, _ => .lease .reset
  | .claim leaseMs, _ => .lease (.granted ⟨token, now + milliseconds leaseMs⟩)
  | .recordFailure owner _ _ _, _ => .lease (.released owner)
  | .recordCompletion owner, _ => .lease (.released owner)
  | .quarantine _, row => .quarantined row.originalBody
  | .replay _, _ => .lease .reset

/-- The token of an outcome statement. -/
def Statement.owner : Statement → Option ℕ
  | .recordFailure token _ _ _ => some token
  | .recordCompletion token => some token
  | _ => none

end CinemaLoyalty
