import CinemaLoyalty.Schema
import CinemaLoyalty.Lib.Leasing

/-! @svc OutboxRows | layer:model | source:src/loyalty/outbox-publisher.service.ts

    The statements that move a row of the outbox. Two of them compare times with
    `statement_timestamp()`, the outcome records with `clock_timestamp()`; a statement gets both, the
    time it was received and the time it takes effect. -/

namespace CinemaLoyalty
open Leasing

def BATCH_SIZE : ℕ := 50
def RETRY_BASE_MS : ℤ := 5000
def RETRY_MAX_MS : ℤ := 60000

/-- `LEAST(RETRY_MAX_MS, RETRY_BASE_MS * power(2, LEAST(GREATEST(attempts - 1, 0), 4)))`. -/
def retryMs (attempts : ℤ) : ℤ :=
  min RETRY_MAX_MS (RETRY_BASE_MS * 2 ^ (min (max (attempts - 1) 0) 4).toNat)

namespace OutboxEvent

/-- The status of a row whose attempt did not complete. -/
def retried (row : OutboxEvent) : OutboxEventStatus :=
  if row.maxAttempts ≤ row.attempts then .FAILED else .PENDING

/-- `lease_token = token AND lease_expires_at > now`, of a row in `PROCESSING`. -/
def OwnedBy (row : OutboxEvent) (token : ℕ) (now : Instant) : Prop :=
  row.status = .PROCESSING ∧ row.leaseToken = some token ∧ ∃ e ∈ row.leaseExpiresAt, now < e

instance (row : OutboxEvent) (token : ℕ) (now : Instant) : Decidable (row.OwnedBy token now) :=
  inferInstanceAs (Decidable (_ ∧ _ ∧ ∃ e ∈ row.leaseExpiresAt, now < e))

/-- `recoverExpiredClaims`. -/
def recoverExpiredClaim (received now : Instant) (row : OutboxEvent) : Option OutboxEvent :=
  if row.status = .PROCESSING ∧ row.leaseToken.isSome ∧ row.leaseExpiresAt.any (· ≤ received) then
    some { row with
      status := row.retried
      nextAttemptAt := now + retryMs row.attempts
      leaseToken := none
      leaseExpiresAt := none
      error := some (if row.maxAttempts ≤ row.attempts then
          "Outbox attempts exhausted (including expired claims)"
        else "Outbox claim lease expired; retry scheduled") }
  else none

/-- `failExhaustedPending`. -/
def failExhaustedPending (now : Instant) (row : OutboxEvent) : Option OutboxEvent :=
  if row.status = .PENDING ∧ row.maxAttempts ≤ row.attempts then
    some { row with
      status := .FAILED
      nextAttemptAt := now + retryMs row.attempts
      leaseToken := none
      leaseExpiresAt := none
      error := some "Outbox attempts exhausted (including expired claims)" }
  else none

/-- `claimEvents`. -/
def claim (leaseMs : ℤ) (token : ℕ) (received now : Instant) (row : OutboxEvent) :
    Option OutboxEvent :=
  if row.status = .PENDING ∧ row.attempts < row.maxAttempts ∧ row.nextAttemptAt ≤ received then
    some { row with
      status := .PROCESSING
      attempts := row.attempts + 1
      leaseToken := some token
      leaseExpiresAt := some (now + leaseMs) }
  else none

/-- The failure record of `processEvent`. -/
def recordFailure (token : ℕ) (message : String) (delayMs : ℤ) (now : Instant)
    (row : OutboxEvent) : Option OutboxEvent :=
  if row.OwnedBy token now then
    some { row with
      status := row.retried
      nextAttemptAt := now + delayMs
      error := some message
      leaseToken := none
      leaseExpiresAt := none }
  else none

/-- The completion record of `processEvent`. -/
def recordSuccess (token : ℕ) (now : Instant) (row : OutboxEvent) : Option OutboxEvent :=
  if row.OwnedBy token now then
    some { row with
      status := .COMPLETED
      publishedAt := some now
      error := none
      leaseToken := none
      leaseExpiresAt := none }
  else none

end OutboxEvent

/-- The statements of the publisher, for one row. -/
inductive OutboxStatement
  | recoverExpiredClaims
  | failExhaustedPending
  | claimEvents (leaseMs : ℤ)
  | recordFailure (token : ℕ) (message : String) (delayMs : ℤ)
  | recordSuccess (token : ℕ)

/-- The row a statement leaves, when its condition selects it. `token` is what `gen_random_uuid()`
    answers. -/
def OutboxStatement.write (token : ℕ) (received now : Instant) :
    OutboxStatement → OutboxEvent → Option OutboxEvent
  | .recoverExpiredClaims, row => row.recoverExpiredClaim received now
  | .failExhaustedPending, row => row.failExhaustedPending now
  | .claimEvents leaseMs, row => row.claim leaseMs token received now
  | .recordFailure owner message delayMs, row => row.recordFailure owner message delayMs now
  | .recordSuccess owner, row => row.recordSuccess owner now

/-- What a statement that wrote does to the leases of its row. -/
def OutboxStatement.leaseEvents (token : ℕ) (now : Instant) :
    OutboxStatement → List (Leasing.Event ℕ Instant)
  | .claimEvents leaseMs => [.granted ⟨token, now + leaseMs⟩]
  | .recordFailure owner _ _ => [.released owner]
  | .recordSuccess owner => [.released owner]
  | _ => []

/-- The token of an outcome statement. -/
def OutboxStatement.owner : OutboxStatement → Option ℕ
  | .recordFailure token _ _ => some token
  | .recordSuccess token => some token
  | _ => none

/-- What `processEvent` hands to the listeners: `eventId` and `occurredAt` are the context. -/
structure Publication where
  eventId : RowId
  payload : TierUpgradedPayload
  occurredAt : Instant
  deriving DecidableEq

/-- The publication of a row. -/
def OutboxEvent.publication (row : OutboxEvent) : Publication where
  eventId := row.id
  payload := row.payload
  occurredAt := row.createdAt

/-- A row as its writers insert it. -/
structure OutboxEvent.Inserted (row : OutboxEvent) : Prop where
  status : row.status = .PENDING
  attempts : row.attempts = 0
  maxAttempts : 1 ≤ row.maxAttempts
  leaseToken : row.leaseToken = none
  leaseExpiresAt : row.leaseExpiresAt = none

instance (row : OutboxEvent) : Decidable row.Inserted :=
  decidable_of_iff (row.status = .PENDING ∧ row.attempts = 0 ∧ 1 ≤ row.maxAttempts ∧
      row.leaseToken = none ∧ row.leaseExpiresAt = none)
    ⟨fun ⟨h₁, h₂, h₃, h₄, h₅⟩ => ⟨h₁, h₂, h₃, h₄, h₅⟩,
      fun ⟨h₁, h₂, h₃, h₄, h₅⟩ => ⟨h₁, h₂, h₃, h₄, h₅⟩⟩

end CinemaLoyalty
