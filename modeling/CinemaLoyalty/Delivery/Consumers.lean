import CinemaLoyalty.Criteria
import CinemaLoyalty.Delivery.Acknowledge
import CinemaLoyalty.Service

/-! @svc DeliveryConsumers | layer:model | source:src/loyalty/consumers/ticket-purchased.consumer.ts, src/loyalty/consumers/user-date-of-birth-set.consumer.ts, src/loyalty/dto

    What the two consumers make of the payload of a message: the checks of its class, field by field,
    and the call of the service. `class-validator` and `validator.js` say what a uuid and a date
    string are; a text that is no uuid to the database is none here. -/

namespace CinemaLoyalty
open JsonText Utf16

/-! ### Fields -/

/-- The checks of `validator.js` on texts. -/
structure TextRules where
  isUUID : Text → Bool
  isDateString : Text → Bool

/-- The uuid a text names. -/
def UuidText.ofText? (s : String) : Option UuidText :=
  match h : Uuid.ofText s with
  | some value => some ⟨s, value, h⟩
  | none => none

/-- `@IsUUID()`. -/
def uuidField (rules : TextRules) : Option JsValue → Option UuidText
  | some (.str s) => if rules.isUUID s then (toString? s).bind UuidText.ofText? else none
  | _ => none

/-- `@IsString()`. -/
def stringField : JsValue → Option Text
  | .str s => some s
  | _ => none

/-- `@IsDateString()`. -/
def dateStringField (rules : TextRules) : Option JsValue → Option Text
  | some (.str s) => if rules.isDateString s then some s else none
  | _ => none

/-- `@IsNumber()`: a finite number. -/
def numberField : JsValue → Option ℚ
  | .num (.fin q) => some q
  | _ => none

/-- `@IsNumber() @Min(0)`. -/
def minZeroField (v : JsValue) : Option { q : ℚ // 0 ≤ q } :=
  (numberField v).bind fun q => if h : 0 ≤ q then some ⟨q, h⟩ else none

/-- `@IsOptional()`: a field that is left out or `null` is not checked. -/
def optionalField {α : Type} (check : JsValue → Option α) : Option JsValue → Option (Supplied α)
  | none => some .absent
  | some .null => some .null
  | some v => (check v).map .value

/-- An amount without its bound. -/
def Supplied.amount : Supplied { q : ℚ // 0 ≤ q } → Supplied ℚ
  | .absent => .absent
  | .null => .null
  | .value q => .value q

theorem supplied_nonneg (s : Supplied { q : ℚ // 0 ≤ q }) : ∀ a, s.amount.get? = some a → 0 ≤ a := by
  cases s with
  | absent => exact nofun
  | null => exact nofun
  | value q =>
    rintro a ⟨⟩
    exact q.2

/-- A text the database can keep; one with half a surrogate pair fails its insert. -/
def Supplied.decoded : Supplied Text → Except TxError (Supplied String)
  | .absent => .ok .absent
  | .null => .ok .null
  | .value s => match toString? s with
    | some s => .ok (.value s)
    | none => .error (.prisma .validation)

/-! ### Consumers -/

def EventType.ofText : String → Option EventType
  | "STANDARD" => some .STANDARD
  | "SPECIAL" => some .SPECIAL
  | "PREMIERE" => some .PREMIERE
  | _ => none

/-- `PermanentMessageError` with its code as its message. -/
def permanentMessage (code : PermanentMessageCode) : TxError := .permanent code code.text

/-- `plainToInstance(TicketPurchasedDto, data)` and `validate`. -/
def validatePurchase (rules : TextRules) (data : JsValue) :
    Option (Except TxError TicketPurchasedDto) := do
  let eventId ← uuidField rules (data.field (ofString "eventId"))
  let userId ← uuidField rules (data.field (ofString "userId"))
  let orderId ← uuidField rules (data.field (ofString "orderId"))
  let totalAmount ← (data.field (ofString "totalAmount")).bind minZeroField
  let _ ← (data.field (ofString "ticketAmount")).bind minZeroField
  let _ ← (data.field (ofString "foodAmount")).bind minZeroField
  let eventType ← parseEnum EventType.ofText (data.field (ofString "eventType"))
  let _ ← dateStringField rules (data.field (ofString "purchasedAt"))
  let paidAmount ← optionalField minZeroField (data.field (ofString "paidAmount"))
  let pointsUsed ← optionalField minZeroField (data.field (ofString "pointsUsed"))
  let seatClass ← optionalField stringField (data.field (ofString "seatClass"))
  let _ ← optionalField numberField (data.field (ofString "ticketCount"))
  return seatClass.decoded.map fun seatClass =>
    { eventId, userId, orderId
      totalAmount := totalAmount
      eventType
      paidAmount := paidAmount.amount
      pointsUsed := pointsUsed.amount
      seatClass
      total_nonneg := totalAmount.2
      paid_nonneg := supplied_nonneg paidAmount
      used_nonneg := supplied_nonneg pointsUsed }

/-- The work of `TicketPurchasedConsumer.handle` before its call of the service. -/
def ticketPurchasedCall (rules : TextRules) : Option JsValue → Except TxError Call
  | some (.obj fields) =>
    match validatePurchase rules (.obj fields) with
    | some dto => dto.map .processTicketPurchase
    | none => .error (permanentMessage .INVALID_PURCHASE_PAYLOAD)
  | _ => .error (permanentMessage .INVALID_PURCHASE_PAYLOAD)

/-- `payload.a ?? payload.b`. -/
def orElseField (a b : Option JsValue) : Option JsValue :=
  match a with
  | some .null | none => b
  | some v => some v

/-- `normalizePayload`: the `dateOfBirth` of a payload under any of its three names. -/
def normalizedDateOfBirth (data : JsValue) : Option JsValue :=
  orElseField (data.field (ofString "dateOfBirth"))
    (orElseField (data.field (ofString "dob")) (data.field (ofString "birthdayDate")))

/-- `plainToInstance(UserDateOfBirthSetDto, ...)` and `validate`. -/
def validateDateOfBirth (rules : TextRules) (data : JsValue) : Option (UuidText × Text) := do
  let _ ← optionalField stringField (data.field (ofString "eventId"))
  let userId ← uuidField rules (data.field (ofString "userId"))
  let dateOfBirth ← (normalizedDateOfBirth data).bind stringField
  let _ ← optionalField stringField (data.field (ofString "occurredAtUtc"))
  return (userId, dateOfBirth)

/-- The work of `UserDateOfBirthSetConsumer.handle` before its call of the service; a text with half
    a surrogate pair is no date. -/
def userDateOfBirthSetCall (rules : TextRules) (newDate : String → Option Instant) :
    Option JsValue → Except TxError Call
  | some (.obj fields) =>
    match validateDateOfBirth rules (.obj fields) with
    | some (userId, dateOfBirth) =>
      match toString? dateOfBirth with
      | some dateOfBirth => .ok (.processUserDateOfBirthSet newDate userId dateOfBirth)
      | none => .error (permanentMessage .INVALID_DATE_OF_BIRTH)
    | none => .error (permanentMessage .INVALID_DOB_PAYLOAD)
  | _ => .error (permanentMessage .INVALID_DOB_PAYLOAD)

/-- The consumers of a deployment: the payload in the bytes of a message, if there is one. -/
structure Consumers (Copy : Type) extends Deployment Copy where
  payload : Buffer → Option JsValue
  rules : TextRules
  newDate : String → Option Instant

section consumers
variable {Copy : Type} (K : Consumers Copy)

/-- What `work` calls for a body, or the error it throws before. -/
def Consumers.callOf (body : Buffer) : Except TxError Call :=
  match K.pattern body with
  | .TicketPurchased => ticketPurchasedCall K.rules (K.payload body)
  | .UserDateOfBirthSet => userDateOfBirthSetCall K.rules K.newDate (K.payload body)

/-- What `work` calls for a copy. -/
def Consumers.work (c : Copy) : Except TxError Call := K.callOf (K.content c)

variable {K}

/-- The purchase consumer calls nothing but `processTicketPurchase`. -/
theorem ticketPurchased_calls {rules : TextRules} {data : Option JsValue} {call : Call}
    (h : ticketPurchasedCall rules data = .ok call) : ∃ msg, call = .processTicketPurchase msg := by
  unfold ticketPurchasedCall at h
  split at h
  · split at h
    · rename_i dto hdto
      cases dto with
      | error e => cases h
      | ok msg =>
        cases h
        exact ⟨msg, rfl⟩
    · cases h
  · cases h

/-- The date-of-birth consumer calls nothing but the setter. -/
theorem dateOfBirth_calls {rules : TextRules} {newDate : String → Option Instant}
    {data : Option JsValue} {call : Call} (h : userDateOfBirthSetCall rules newDate data = .ok call) :
    ∃ userId dateOfBirth, call = .processUserDateOfBirthSet newDate userId dateOfBirth := by
  unfold userDateOfBirthSetCall at h
  split at h
  · split at h
    · split at h
      · cases h
        exact ⟨_, _, rfl⟩
      · cases h
    · cases h
  · cases h

end consumers

end CinemaLoyalty
