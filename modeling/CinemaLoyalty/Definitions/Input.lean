import CinemaLoyalty.Criteria
import CinemaLoyalty.Listings
import Mathlib.Data.List.Sort

/-! @svc DefinitionInput | layer:model | source:src/achievements/validators/admin-achievement-input.validator.ts, src/achievements/enums/achievement-maps.enum.ts, src/achievements/mappers/achievement.mapper.ts

    What an admin request for an achievement definition becomes: the field checks in the order of the
    object literal, the row PostgreSQL keeps, and the message that shows it. Any field of a request
    can be missing. A `jsonb` column orders the keys of an object by length and then by bytes. -/

namespace CinemaLoyalty
open JsonText Utf16

/-! ### Enumerations -/

/-- `AchievementCategory` of the database. -/
inductive AchievementCategory | VISITS | SPENDING | TIER | TIME | SPECIAL | STREAK | SECRET
  deriving DecidableEq, Repr

/-- `AchievementRarity` of the database. -/
inductive AchievementRarity | COMMON | UNCOMMON | RARE | EPIC | LEGENDARY
  deriving DecidableEq, Repr

/-- `AchievementStrategy` of the database. -/
inductive AchievementStrategy | INSTANT | THRESHOLD | STREAK
  deriving DecidableEq, Repr

def GrpcToCategory : List (ℤ × AchievementCategory) :=
  [(1, .VISITS), (2, .SPENDING), (3, .TIER), (4, .TIME), (5, .SPECIAL), (6, .STREAK), (7, .SECRET)]

def GrpcToRarity : List (ℤ × AchievementRarity) :=
  [(1, .COMMON), (2, .UNCOMMON), (3, .RARE), (4, .EPIC), (5, .LEGENDARY)]

def GrpcToStrategy : List (ℤ × AchievementStrategy) :=
  [(1, .INSTANT), (2, .THRESHOLD), (3, .STREAK)]

def CategoryToGrpc : AchievementCategory → ℤ
  | .VISITS => 1
  | .SPENDING => 2
  | .TIER => 3
  | .TIME => 4
  | .SPECIAL => 5
  | .STREAK => 6
  | .SECRET => 7

def RarityToGrpc : AchievementRarity → ℤ
  | .COMMON => 1
  | .UNCOMMON => 2
  | .RARE => 3
  | .EPIC => 4
  | .LEGENDARY => 5

def StrategyToGrpc : AchievementStrategy → ℤ
  | .INSTANT => 1
  | .THRESHOLD => 2
  | .STREAK => 3

/-! ### Fields -/

def ACHIEVEMENT_CODE_MAX_LENGTH : ℕ := 64
def ACHIEVEMENT_NAME_MAX_LENGTH : ℕ := 128
def ACHIEVEMENT_DESCRIPTION_MAX_LENGTH : ℕ := 10000
def ACHIEVEMENT_ICON_MAX_LENGTH : ℕ := 128
def ACHIEVEMENT_MAX_REWARD_POINTS : ℤ := 1000000
def ACHIEVEMENT_SORT_ORDER_MIN : ℤ := -32768
def ACHIEVEMENT_SORT_ORDER_MAX : ℤ := 32767

/-- `requiredString`. -/
def requiredString (value : Option String) (field : String) (max : ℕ) : Except TxError String :=
  let normalized := (value.map jsTrim).getD ""
  if jsLength normalized = 0 ∨ max < jsLength normalized then
    .error (.rpc .INVALID_ARGUMENT
      (field ++ " must be between 1 and " ++ toString max ++ " characters"))
  else .ok normalized

/-- `optionalString`. -/
def optionalString (value : Option String) : Option String :=
  (value.map jsTrim).filter fun normalized => jsLength normalized ≠ 0

/-- `mapToPrisma`: a number that is no key of the map finds nothing. -/
def mapToPrisma {T : Type} (map : List (ℤ × T)) (value : Option JsNumber) (field : String) :
    Except TxError T :=
  match value.bind fun n => map.find? fun entry => n = .fin entry.1 with
  | none => .error (.rpc .INVALID_ARGUMENT ("Invalid " ++ field))
  | some (_, mapped) => .ok mapped

/-- `intInRange`. -/
def intInRange (value : Option JsNumber) (field : String) (min max : ℤ) : Except TxError ℤ :=
  let normalized := value.getD (.fin 0)
  match normalized.toInt? with
  | some n =>
    if n < min ∨ max < n then
      .error (.rpc .INVALID_ARGUMENT
        (field ++ " must be an integer between " ++ toString min ++ " and " ++ toString max))
    else .ok n
  | none =>
    .error (.rpc .INVALID_ARGUMENT
      (field ++ " must be an integer between " ++ toString min ++ " and " ++ toString max))

/-- `AchievementMutationRequest` as the transport hands it over. -/
structure AchievementMutationRequest where
  code : Option String := none
  name : Option String := none
  description : Option String := none
  secretHint : Option String := none
  isSecret : Option Bool := none
  icon : Option String := none
  category : Option JsNumber := none
  rarity : Option JsNumber := none
  strategy : Option JsNumber := none
  criteriaJson : Option Text := none
  rewardPoints : Option JsNumber := none
  sortOrder : Option JsNumber := none
  isActive : Option Bool := none

/-- What `normalizeAchievementInput` returns. -/
structure NormalizedAchievementInput where
  code : String
  name : String
  description : String
  secretHint : Option String
  isSecret : Bool
  icon : String
  category : AchievementCategory
  rarity : AchievementRarity
  strategy : AchievementStrategy
  criteria : JsValue
  rewardPoints : ℤ
  sortOrder : ℤ
  isActive : Bool

/-- `normalizeAchievementInput`; a missing `criteriaJson` is parsed as the text `undefined`. -/
def normalizeAchievementInput (issues : JsValue → String) (req : AchievementMutationRequest) :
    Except TxError NormalizedAchievementInput := do
  let code ← requiredString req.code "code" ACHIEVEMENT_CODE_MAX_LENGTH
  let name ← requiredString req.name "name" ACHIEVEMENT_NAME_MAX_LENGTH
  let description ← requiredString req.description "description" ACHIEVEMENT_DESCRIPTION_MAX_LENGTH
  let icon ← requiredString req.icon "icon" ACHIEVEMENT_ICON_MAX_LENGTH
  let category ← mapToPrisma GrpcToCategory req.category "category"
  let rarity ← mapToPrisma GrpcToRarity req.rarity "rarity"
  let strategy ← mapToPrisma GrpcToStrategy req.strategy "strategy"
  let criteria ← validateAndParseCriteriaJson issues (req.criteriaJson.getD (ofString "undefined"))
  let rewardPoints ← intInRange req.rewardPoints "rewardPoints" 0 ACHIEVEMENT_MAX_REWARD_POINTS
  let sortOrder ← intInRange req.sortOrder "sortOrder" ACHIEVEMENT_SORT_ORDER_MIN
    ACHIEVEMENT_SORT_ORDER_MAX
  return {
    code, name, description
    secretHint := optionalString req.secretHint
    isSecret := req.isSecret.getD false
    icon, category, rarity, strategy, criteria, rewardPoints, sortOrder
    isActive := req.isActive.getD false }

/-! ### Rows -/

/-- The order of the keys of an object in a `jsonb` column. -/
def KeyBefore (a b : String × Json) : Prop :=
  a.1.utf8ByteSize < b.1.utf8ByteSize ∨ a.1.utf8ByteSize = b.1.utf8ByteSize ∧ a.1 ≤ b.1

instance : DecidableRel KeyBefore := fun _ _ => inferInstanceAs (Decidable (_ ∨ _))

/-- A value as a `jsonb` column keeps it; the values inside criteria are strings and numbers. -/
def jsonb : Json → Json
  | .obj fields => .obj (fields.insertionSort KeyBefore)
  | v => v

/-- The columns an admin sets. -/
structure AchievementColumns where
  code : String
  name : String
  description : String
  secretHint : Option String
  isSecret : Bool
  icon : String
  category : AchievementCategory
  rarity : AchievementRarity
  strategy : AchievementStrategy
  criteria : Json
  rewardPoints : ℤ
  sortOrder : ℤ
  isActive : Bool

/-- A row of `achievements`. -/
structure AchievementRecord extends AchievementColumns where
  id : Uuid
  createdAt : Instant
  updatedAt : Instant

/-- `VARCHAR(n)` counts characters. -/
def isVarchar (n : ℕ) (s : String) : Bool := isTextColumn s && decide (s.toList.length ≤ n)

/-- `SMALLINT`. -/
def isInt16 (n : ℤ) : Bool := decide (-32768 ≤ n) && decide (n ≤ 32767)

/-- Every value fits its column. -/
def AchievementColumns.inRange (a : AchievementColumns) : Bool :=
  isVarchar 64 a.code && isVarchar 128 a.name && isTextColumn a.description &&
    a.secretHint.all isTextColumn && isVarchar 128 a.icon && isInt32 a.rewardPoints &&
    isInt16 a.sortOrder

/-- What PostgreSQL keeps of an input, if its columns take every value. -/
def NormalizedAchievementInput.columns (input : NormalizedAchievementInput) :
    Option AchievementColumns := do
  let criteria ← stored input.criteria
  let row : AchievementColumns :=
    { code := input.code, name := input.name, description := input.description
      secretHint := input.secretHint, isSecret := input.isSecret, icon := input.icon
      category := input.category, rarity := input.rarity, strategy := input.strategy
      criteria := jsonb criteria, rewardPoints := input.rewardPoints, sortOrder := input.sortOrder
      isActive := input.isActive }
  if row.inRange then some row else none

/-- The row as the listings sort it. -/
def AchievementRecord.row (a : AchievementRecord) : AchievementRow where
  id := a.id
  code := a.code
  name := a.name
  criteria := a.criteria
  rewardPoints := a.rewardPoints
  isActive := a.isActive
  sortOrder := a.sortOrder
  createdAt := a.createdAt

/-- The row as the worker reads it. -/
def AchievementRecord.achievement (a : AchievementRecord) : Achievement := a.row.toAchievement

/-! ### Messages -/

/-- `AchievementDto`. -/
structure AchievementDto where
  id : Uuid
  code : String
  name : String
  description : String
  secretHint : Option String
  isSecret : Bool
  icon : String
  category : ℤ
  rarity : ℤ
  strategy : ℤ
  criteriaJson : Text
  rewardPoints : ℤ
  sortOrder : ℤ
  isActive : Bool
  createdAt : String
  updatedAt : String
  deriving DecidableEq

/-- `AchievementMapper.toGrpc`; `other` is how JavaScript writes a number with a fraction. -/
def toGrpc (other : ℚ → Text) (achievement : AchievementRecord) : AchievementDto where
  id := achievement.id
  code := achievement.code
  name := achievement.name
  description := achievement.description
  secretHint := achievement.secretHint
  isSecret := achievement.isSecret
  icon := achievement.icon
  category := CategoryToGrpc achievement.category
  rarity := RarityToGrpc achievement.rarity
  strategy := StrategyToGrpc achievement.strategy
  criteriaJson := toGrpcCriteriaJson other achievement.criteria
  rewardPoints := achievement.rewardPoints
  sortOrder := achievement.sortOrder
  isActive := achievement.isActive
  createdAt := toISOString achievement.createdAt
  updatedAt := toISOString achievement.updatedAt

/-- The request that submits a message as it was shown. -/
def AchievementDto.resubmitted (dto : AchievementDto) : AchievementMutationRequest where
  code := some dto.code
  name := some dto.name
  description := some dto.description
  secretHint := dto.secretHint
  isSecret := some dto.isSecret
  icon := some dto.icon
  category := some (.fin dto.category)
  rarity := some (.fin dto.rarity)
  strategy := some (.fin dto.strategy)
  criteriaJson := some dto.criteriaJson
  rewardPoints := some (.fin dto.rewardPoints)
  sortOrder := some (.fin dto.sortOrder)
  isActive := some dto.isActive

end CinemaLoyalty
